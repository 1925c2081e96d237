import TextConsole.Json.Parse

/-!
# The grammar of JSON texts

What it is for a text to write a value (`Json.Writes`): the tokens of the value stand in
it in their order, each in one of its spellings, with white space anywhere between. The
machines that read a text do not occur here.

A string is spelled by pieces. A piece is a character that stands for itself, a backslash and a
letter, or a unit of four hexadecimal digits after `\u`. Pieces spell a text as long as the
units beyond the range of characters come in pairs (`Spells`); a string of other pieces is a
string all the same, without a text.
-/

namespace TextConsole.Json

/-! ## Numerals -/

/-- A run of digits, at least one. -/
def Digits (cs : List Char) : Prop := cs ≠ [] ∧ ∀ c ∈ cs, c.isDigit = true

inductive IntegerPart : List Char → Prop
  | zero : IntegerPart ['0']
  | digits {c : Char} {cs : List Char} (hc : c.isDigit = true) (hzero : c ≠ '0')
      (hcs : ∀ d ∈ cs, d.isDigit = true) : IntegerPart (c :: cs)

inductive FractionPart : List Char → Prop
  | none : FractionPart []
  | some {cs : List Char} (hcs : Digits cs) : FractionPart ('.' :: cs)

inductive ExponentPart : List Char → Prop
  | none : ExponentPart []
  | some {letter : Char} {sign cs : List Char} (hletter : letter = 'e' ∨ letter = 'E')
      (hsign : sign = [] ∨ sign = ['+'] ∨ sign = ['-']) (hcs : Digits cs) :
      ExponentPart (letter :: (sign ++ cs))

/-- A number as it stands in a text. -/
inductive Numeral : List Char → Prop
  | mk {sign int frac exp : List Char} (hsign : sign = [] ∨ sign = ['-'])
      (hint : IntegerPart int) (hfrac : FractionPart frac) (hexp : ExponentPart exp) :
      Numeral (sign ++ (int ++ (frac ++ exp)))

/-! ## Strings -/

/-- How a piece of a string stands in a text. -/
inductive Piece.Written : Piece → List Char → Prop
  | plain {c : Char} (hc : ' ' ≤ c) (hquote : c ≠ '"') (hslash : c ≠ '\\') :
      Piece.Written (.char c) [c]
  | letter {c d : Char} (hd : unescape? c = some d) : Piece.Written (.char d) ['\\', c]
  | code {c₃ c₂ c₁ c₀ : Char} {d₃ d₂ d₁ d₀ : Nat} (h₃ : hexDigit? c₃ = some d₃)
      (h₂ : hexDigit? c₂ = some d₂) (h₁ : hexDigit? c₁ = some d₁) (h₀ : hexDigit? c₀ = some d₀) :
      Piece.Written (.unit (16 * (16 * (16 * d₃ + d₂) + d₁) + d₀)) ['\\', 'u', c₃, c₂, c₁, c₀]

/-- How pieces stand in a text, one after the other. -/
inductive Body : List Piece → List Char → Prop
  | nil : Body [] []
  | cons {p : Piece} {ps : List Piece} {cs rest : List Char} (hp : p.Written cs)
      (hps : Body ps rest) : Body (p :: ps) (cs ++ rest)

/-- The characters that pieces spell. -/
inductive Spells : List Piece → List Char → Prop
  | nil : Spells [] []
  | char {c : Char} {ps : List Piece} {cs : List Char} (h : Spells ps cs) :
      Spells (.char c :: ps) (c :: cs)
  | unit {code : Nat} {ps : List Piece} {cs : List Char} (hlow : isLowSurrogate code = false)
      (hhigh : isHighSurrogate code = false) (h : Spells ps cs) :
      Spells (.unit code :: ps) (Char.ofNat code :: cs)
  | pair {high low : Nat} {ps : List Piece} {cs : List Char} (hhigh : isHighSurrogate high = true)
      (hlow : isLowSurrogate low = true) (h : Spells ps cs) :
      Spells (.unit high :: .unit low :: ps) (joinSurrogates high low :: cs)

/-! ## Texts -/

/-- How a token stands in a text. -/
inductive Token.Written : Token → List Char → Prop
  | punctuation {c : Char} {t : Token} (hc : punctuation? c = some t) : Token.Written t [c]
  | null : Token.Written .null "null".toList
  | true : Token.Written (.bool true) "true".toList
  | false : Token.Written (.bool false) "false".toList
  | num {cs : List Char} (hcs : Numeral cs) : Token.Written (.num (String.ofList cs)) cs
  | str {ps : List Piece} {cs : List Char} {s : String} (hbody : Body ps cs)
      (hs : Spells ps s.toList) : Token.Written (.str (some s)) ('"' :: (cs ++ ['"']))
  /-- A string that spells no text. -/
  | halves {ps : List Piece} {cs : List Char} (hbody : Body ps cs)
      (hnone : ∀ cs, ¬ Spells ps cs) : Token.Written (.str none) ('"' :: (cs ++ ['"']))

/-- Tokens in a text, with white space anywhere between. -/
inductive Spaced : List Token → List Char → Prop
  | done {space : List Char} (hspace : ∀ c ∈ space, isSpace c = true) : Spaced [] space
  | next {space cs rest : List Char} {t : Token} {ts : List Token}
      (hspace : ∀ c ∈ space, isSpace c = true) (ht : t.Written cs) (hrest : Spaced ts rest) :
      Spaced (t :: ts) (space ++ (cs ++ rest))

/-- Whether a text writes a value. -/
def Writes (v : Json) (text : String) : Prop := Spaced (tokens v) text.toList

namespace Spaced

variable {ts : List Token} {t : Token} {c : Char} {cs rest : List Char}

theorem token (ht : t.Written cs) (h : Spaced ts rest) : Spaced (t :: ts) (cs ++ rest) :=
  .next (fun _ hc => absurd hc List.not_mem_nil) ht h

theorem mark (hc : punctuation? c = some t) (h : Spaced ts rest) : Spaced (t :: ts) (c :: rest) :=
  h.token (.punctuation hc)

/-- One more character of white space. -/
theorem space (hc : isSpace c = true) (h : Spaced ts rest) : Spaced ts (c :: rest) := by
  cases h with
  | done hspace => exact .done (List.forall_mem_cons.mpr ⟨hc, hspace⟩)
  | next hspace ht hrest => exact .next (List.forall_mem_cons.mpr ⟨hc, hspace⟩) ht hrest

end Spaced

/-! ## Numerals are recognised -/

theorem Digits.isDigits {cs : List Char} (h : Digits cs) : isDigits cs = true := by
  obtain ⟨hne, hall⟩ := h
  simpa [Json.isDigits, hne] using hall

/-- A run of digits ends where something else begins. -/
theorem span_digits {cs rest : List Char} (hcs : ∀ c ∈ cs, c.isDigit = true)
    (hrest : ∀ c ∈ rest.head?, c.isDigit = false) :
    (cs ++ rest).takeWhile Char.isDigit = cs ∧ (cs ++ rest).dropWhile Char.isDigit = rest := by
  have hstop : rest.takeWhile Char.isDigit = [] ∧ rest.dropWhile Char.isDigit = rest := by
    cases rest with
    | nil => exact ⟨rfl, rfl⟩
    | cons c rest =>
        have hc := hrest c rfl
        simp [hc]
  rw [List.takeWhile_append_of_pos hcs, List.dropWhile_append_of_pos hcs, hstop.1, hstop.2,
    List.append_nil]
  exact ⟨rfl, rfl⟩

/-- Nothing that follows a run of digits in a numeral begins with a digit. -/
theorem ExponentPart.head_not_digit {cs : List Char} (h : ExponentPart cs) :
    ∀ c ∈ cs.head?, c.isDigit = false := by
  cases h with
  | none => simp
  | some hletter _ _ => rcases hletter with rfl | rfl <;> simp

theorem FractionPart.head_not_digit {frac exp : List Char} (h : FractionPart frac)
    (hexp : ExponentPart exp) : ∀ c ∈ (frac ++ exp).head?, c.isDigit = false := by
  cases h with
  | none => exact hexp.head_not_digit
  | some _ => simp

/-- Digits with a sign before them, or none. -/
theorem isExponent_of_digits {sign cs : List Char} (hsign : sign = [] ∨ sign = ['+'] ∨ sign = ['-'])
    (h : Digits cs) : isExponent (sign ++ cs) = true := by
  rcases hsign with rfl | rfl | rfl
  · rw [List.nil_append]
    unfold isExponent
    split
    · exact absurd (h.2 '+' List.mem_cons_self) (by decide)
    · exact absurd (h.2 '-' List.mem_cons_self) (by decide)
    · exact h.isDigits
  · exact h.isDigits
  · exact h.isDigits

theorem ExponentPart.isExponentPart {cs : List Char} (h : ExponentPart cs) :
    isExponentPart cs = true := by
  cases h with
  | none => rfl
  | some hletter hsign hcs =>
      rcases hletter with rfl | rfl
      · exact isExponent_of_digits hsign hcs
      · exact isExponent_of_digits hsign hcs

theorem FractionPart.isFractionPart {frac exp : List Char} (h : FractionPart frac)
    (hexp : ExponentPart exp) : isFractionPart (frac ++ exp) = true := by
  cases h with
  | none =>
      cases hexp with
      | none => rfl
      | some hletter hsign hcs =>
          have hpart := (ExponentPart.some hletter hsign hcs).isExponentPart
          rcases hletter with rfl | rfl
          · exact hpart
          · exact hpart
  | some hcs =>
      obtain ⟨htake, hdrop⟩ := span_digits hcs.2 hexp.head_not_digit
      rw [List.cons_append, Json.isFractionPart, htake, hdrop, hcs.isDigits,
        hexp.isExponentPart]
      rfl

theorem IntegerPart.isUnsigned {int frac exp : List Char} (h : IntegerPart int)
    (hfrac : FractionPart frac) (hexp : ExponentPart exp) :
    isUnsigned (int ++ (frac ++ exp)) = true := by
  have hpart := hfrac.isFractionPart hexp
  cases h with
  | zero => exact hpart
  | digits hc hzero hcs =>
      obtain ⟨_, hdrop⟩ := span_digits hcs (hfrac.head_not_digit hexp)
      rw [List.cons_append]
      unfold Json.isUnsigned
      split
      · rename_i heq
        cases heq
      · rename_i heq
        exact absurd (List.cons.inj heq).1 hzero
      · rename_i heq
        obtain ⟨rfl, rfl⟩ := List.cons.inj heq
        rw [hc, hdrop, hpart]
        rfl

/-- An integer does not begin with a sign. -/
theorem IntegerPart.head_ne {int rest : List Char} (h : IntegerPart int) :
    ∀ cs, int ++ rest ≠ '-' :: cs := by
  rintro cs heq
  cases h with
  | zero => cases heq
  | digits hc _ _ =>
      obtain ⟨rfl, _⟩ := List.cons.inj heq
      exact absurd hc (by decide)

/-- **The numerals of the grammar are recognised.** -/
theorem Numeral.isNumeral {cs : List Char} (h : Numeral cs) : isNumeral cs = true := by
  obtain ⟨hsign, hint, hfrac, hexp⟩ := h
  have hunsigned := hint.isUnsigned hfrac hexp
  rcases hsign with rfl | rfl
  · rw [List.nil_append]
    unfold Json.isNumeral
    split
    · rename_i heq
      exact absurd heq (hint.head_ne _)
    · exact hunsigned
  · exact hunsigned

theorem Numeral.ne_nil {cs : List Char} (h : Numeral cs) : cs ≠ [] := by
  rintro rfl
  cases h.isNumeral

/-- A numeral is made of the characters of words. -/
theorem Numeral.isWordChar {cs : List Char} (h : Numeral cs) : ∀ c ∈ cs, isWordChar c = true := by
  have hdigit : ∀ {c : Char}, c.isDigit = true → Json.isWordChar c = true := by
    intro c hc
    simp [Json.isWordChar, Char.isAlphanum, hc]
  obtain ⟨hsign, hint, hfrac, hexp⟩ := h
  simp only [List.mem_append]
  rintro c (hc | hc | hc | hc)
  · rcases hsign with rfl | rfl
    · cases hc
    · obtain rfl := List.mem_singleton.mp hc
      rfl
  · cases hint with
    | zero =>
        obtain rfl := List.mem_singleton.mp hc
        rfl
    | digits hfirst _ hcs =>
        rcases List.mem_cons.mp hc with rfl | hc
        · exact hdigit hfirst
        · exact hdigit (hcs c hc)
  · cases hfrac with
    | none => cases hc
    | some hcs =>
        rcases List.mem_cons.mp hc with rfl | hc
        · rfl
        · exact hdigit (hcs.2 c hc)
  · cases hexp with
    | none => cases hc
    | some hletter hsign hcs =>
        simp only [List.mem_cons, List.mem_append] at hc
        rcases hc with rfl | hc | hc
        · rcases hletter with rfl | rfl <;> rfl
        · rcases hsign with rfl | rfl | rfl
          · cases hc
          · obtain rfl := List.mem_singleton.mp hc
            rfl
          · obtain rfl := List.mem_singleton.mp hc
            rfl
        · exact hdigit (hcs.2 c hc)

/-- The digits of a positive number do not begin with a zero. -/
theorem head_toDigits {n : Nat} (hn : 0 < n) :
    ∃ c cs, Nat.toDigits 10 n = c :: cs ∧ c ≠ '0' := by
  induction n using Nat.strongRecOn with
  | _ n ih =>
      by_cases hlt : n < 10
      · have hdigit : ∀ d < 10, 0 < d → Nat.digitChar d ≠ '0' := by decide
        exact ⟨n.digitChar, [], Nat.toDigits_of_lt_base hlt, hdigit n hlt hn⟩
      · obtain ⟨c, cs, hcs, hc⟩ := ih (n / 10) (by omega) (by omega)
        refine ⟨c, cs ++ [Nat.digitChar (n % 10)], ?_, hc⟩
        rw [Nat.toDigits_of_base_le (by omega) (by omega), hcs, List.cons_append]

/-- **Natural numbers are written by their digits.** -/
theorem numeral_toDigits (n : Nat) : Numeral (Nat.toDigits 10 n) := by
  have hint : IntegerPart (Nat.toDigits 10 n) := by
    rcases Nat.eq_zero_or_pos n with rfl | hn
    · rw [Nat.toDigits_zero]
      exact .zero
    · obtain ⟨c, cs, hcs, hc⟩ := head_toDigits hn
      have hall : ∀ d ∈ c :: cs, d.isDigit = true := by
        intro d hd
        rw [← hcs] at hd
        exact Nat.isDigit_of_mem_toDigits (by omega) (by omega) hd
      obtain ⟨hfirst, hrest⟩ := List.forall_mem_cons.mp hall
      rw [hcs]
      exact .digits hfirst hc hrest
  have hnumeral := Numeral.mk (Or.inl rfl) hint .none .none
  simpa using hnumeral

theorem written_ofNat (n : Nat) :
    (Token.num (String.ofList (Nat.toDigits 10 n))).Written (Nat.toDigits 10 n) :=
  .num (numeral_toDigits n)

/-! ## Pieces spell one text at most -/

theorem Spells.append {ps qs : List Piece} {cs ds : List Char} (h : Spells ps cs)
    (h' : Spells qs ds) : Spells (ps ++ qs) (cs ++ ds) := by
  induction h with
  | nil => exact h'
  | char _ ih => exact .char ih
  | unit hlow hhigh _ ih => exact .unit hlow hhigh ih
  | pair hhigh hlow _ ih => exact .pair hhigh hlow ih

theorem spellOnto_unit {code : Nat} (hlow : isLowSurrogate code = false)
    (hhigh : isHighSurrogate code = false) (after : List Char) (before : List Piece) :
    spellOnto after (.unit code :: before) = spellOnto (Char.ofNat code :: after) before := by
  rw [spellOnto.eq_def]
  simp [hlow, hhigh]

/-- Characters that stand for themselves. -/
theorem Body.plain (cs : List Char) (h : ∀ c ∈ cs, ' ' ≤ c ∧ c ≠ '"' ∧ c ≠ '\\') :
    Body (cs.map .char) cs := by
  induction cs with
  | nil => exact .nil
  | cons c cs ih =>
      obtain ⟨⟨hc, hquote, hslash⟩, hcs⟩ := List.forall_mem_cons.mp h
      exact .cons (.plain hc hquote hslash) (ih hcs)

theorem Spells.plain (cs : List Char) : Spells (cs.map .char) cs := by
  induction cs with
  | nil => exact .nil
  | cons c cs ih => exact .char ih

/-- A unit that is half of a surrogate pair, in quotes. -/
theorem half_written : (Token.str none).Written ['"', '\\', 'u', 'd', '8', '0', '0', '"'] := by
  have hunit := @Piece.Written.code 'd' '8' '0' '0' 13 8 0 0 rfl rfl rfl rfl
  refine .halves (.cons hunit .nil) ?_
  intro cs h
  cases h with
  | unit _ hhigh _ => exact absurd hhigh (by decide)

/-- Pieces that spell a text are read as that text, whatever was read before them. -/
theorem Spells.spellOnto {ps : List Piece} {cs : List Char} (h : Spells ps cs) :
    ∀ (after : List Char) (before : List Piece),
      spellOnto after (ps.reverse ++ before) = spellOnto (cs ++ after) before := by
  induction h with
  | nil => exact fun _ _ => rfl
  | @char c ps cs h ih =>
      intro after before
      rw [List.reverse_cons, List.append_assoc, ih]
      rfl
  | unit hlow hhigh h ih =>
      intro after before
      rw [List.reverse_cons, List.append_assoc, ih]
      exact spellOnto_unit hlow hhigh _ _
  | pair hhigh hlow h ih =>
      intro after before
      rw [List.reverse_cons, List.reverse_cons, List.append_assoc, List.append_assoc, ih]
      simp [Json.spellOnto, hlow, hhigh]

/-- What is read as a text is spelled. -/
theorem spells_of_spellOnto {after out : List Char} {read : List Piece}
    (h : spellOnto after read = some out) : ∃ cs, Spells read.reverse cs ∧ out = cs ++ after := by
  -- The last pieces are read first, so each block goes behind those that are still to come.
  have block : ∀ {ps rest : List Piece} {cs ds : List Char}, Spells ps ds →
      Spells rest.reverse cs → Spells (rest.reverse ++ ps) (cs ++ ds) :=
    fun hps hrest => hrest.append hps
  induction after, read using spellOnto.induct with
  | case1 after =>
      obtain rfl := Option.some.inj h
      exact ⟨[], .nil, rfl⟩
  | case2 after c rest ih =>
      obtain ⟨cs, hcs, rfl⟩ := ih h
      refine ⟨cs ++ [c], ?_, by simp⟩
      rw [List.reverse_cons]
      exact block (.char .nil) hcs
  | case3 after code hlow high rest hhigh ih =>
      rw [spellOnto, if_pos hlow, if_pos hhigh] at h
      obtain ⟨cs, hcs, rfl⟩ := ih h
      refine ⟨cs ++ [joinSurrogates high code], ?_, by simp⟩
      rw [List.reverse_cons, List.reverse_cons, List.append_assoc]
      exact block (.pair hhigh hlow .nil) hcs
  | case4 after code hlow high rest hhigh =>
      rw [spellOnto, if_pos hlow, if_neg hhigh] at h
      cases h
  | case5 after code rest hlow hrest =>
      rw [spellOnto.eq_def] at h
      simp only [hlow, if_true] at h
      cases h
  | case6 after code rest hlow hhigh =>
      rw [spellOnto.eq_def] at h
      simp only [hlow, hhigh, if_true] at h
      cases h
  | case7 after code rest hlow hhigh ih =>
      rw [Bool.not_eq_true] at hlow hhigh
      rw [spellOnto_unit hlow hhigh] at h
      obtain ⟨cs, hcs, rfl⟩ := ih h
      refine ⟨cs ++ [Char.ofNat code], ?_, by simp⟩
      rw [List.reverse_cons]
      exact block (.unit hlow hhigh .nil) hcs

/-- **The text of a string is what its pieces spell**, if they spell one. -/
theorem Spells.textOf_reverse {ps : List Piece} {s : String} (h : Spells ps s.toList) :
    textOf ps.reverse = some s := by
  have hspell := h.spellOnto [] []
  rw [List.append_nil, List.append_nil] at hspell
  rw [textOf, hspell, Json.spellOnto, Option.map_some, String.ofList_toList]

theorem textOf_reverse_of_not_spells {ps : List Piece} (h : ∀ cs, ¬ Spells ps cs) :
    textOf ps.reverse = none := by
  rw [textOf, Option.map_eq_none_iff, Option.eq_none_iff_forall_not_mem]
  intro out hout
  obtain ⟨cs, hcs, _⟩ := spells_of_spellOnto hout
  rw [List.reverse_reverse] at hcs
  exact h cs hcs

end TextConsole.Json
