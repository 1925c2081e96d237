import TextConsole.Json.Render
import TextConsole.Proofs.Json.Parsing

/-!
# What is printed can be read

The indented form of a value is a text that writes the value (`writes_render`), and so it
is read back as that value. The new lines and the space at their start are white space between
tokens, and each character of a string stands there as a piece that spells it
(`written_escapeChar`), by itself or as an escape (`escapeChar_eq_self_iff`).

A number is printed as its numeral, which need not be one of the grammar. So the values that
can be printed are those with such numerals only (`Printable`).
-/

namespace TextConsole.Json

/-! ## Strings -/

/-- **What is escaped**: quotes, backslashes, and the control characters below the space. -/
theorem escapeChar_eq_self_iff {c : Char} :
    escapeChar c = [c] ↔ ' ' ≤ c ∧ c ≠ '"' ∧ c ≠ '\\' := by
  constructor
  · intro h
    refine ⟨?_, ?_, ?_⟩
    · rw [← Char.not_lt]
      intro hlt
      have hlength := congrArg List.length h
      unfold escapeChar at hlength
      split_ifs at hlength
      all_goals simp [hexPair] at hlength
    · rintro rfl
      cases h
    · rintro rfl
      cases h
  · rintro ⟨hc, hquote, hslash⟩
    have hne : ∀ d < ' ', c ≠ d := fun d hd heq => absurd hd (Char.not_lt.mpr (heq ▸ hc))
    unfold escapeChar
    rw [if_neg hquote, if_neg hslash, if_neg (hne _ (by decide)), if_neg (hne _ (by decide)),
      if_neg (hne _ (by decide)), if_neg (hne _ (by decide)), if_neg (hne _ (by decide)),
      if_neg (Char.not_lt.mpr hc)]

theorem hexDigit?_digitChar {d : Nat} (hd : d < 16) : hexDigit? d.digitChar = some d := by
  have hall : ∀ d < 16, hexDigit? d.digitChar = some d := by decide
  exact hall d hd

/-- **A character stands in a string as a piece that spells it.** -/
theorem written_escapeChar (c : Char) : ∃ p : Piece, p.Written (escapeChar c) ∧ Spells [p] [c] := by
  have hletter : ∀ {letter : Char}, unescape? letter = some c →
      ∃ p : Piece, p.Written ['\\', letter] ∧ Spells [p] [c] :=
    fun h => ⟨.char c, .letter h, .char .nil⟩
  by_cases hplain : ' ' ≤ c ∧ c ≠ '"' ∧ c ≠ '\\'
  · rw [escapeChar_eq_self_iff.mpr hplain]
    exact ⟨.char c, .plain hplain.1 hplain.2.1 hplain.2.2, .char .nil⟩
  unfold escapeChar
  -- Seven characters have a letter of their own.
  iterate 7
    split
    · subst c
      exact hletter rfl
  split
  · -- The other control characters are below 32, so two of the four digits are zero.
    rename_i hlow
    have hlt : c.toNat < 32 := hlow
    have hcode := @Piece.Written.code '0' '0' (c.toNat / 16).digitChar (c.toNat % 16).digitChar
      0 0 _ _ rfl rfl (hexDigit?_digitChar (by omega)) (hexDigit?_digitChar (by omega))
    rw [show 16 * (16 * (16 * 0 + 0) + c.toNat / 16) + c.toNat % 16 = c.toNat by omega] at hcode
    have hspells := @Spells.unit c.toNat [] []
      (by simp only [isLowSurrogate, Bool.and_eq_false_iff, decide_eq_false_iff_not]; omega)
      (by simp only [isHighSurrogate, Bool.and_eq_false_iff, decide_eq_false_iff_not]; omega) .nil
    rw [Char.ofNat_toNat] at hspells
    exact ⟨.unit c.toNat, hcode, hspells⟩
  · rename_i hquote hslash _ _ _ _ _ hlow
    exact absurd ⟨Char.not_lt.mp hlow, hquote, hslash⟩ hplain

theorem body_escape (cs : List Char) : ∃ ps, Body ps (cs.flatMap escapeChar) ∧ Spells ps cs := by
  induction cs with
  | nil => exact ⟨[], .nil, .nil⟩
  | cons c cs ih =>
      obtain ⟨p, hp, hc⟩ := written_escapeChar c
      obtain ⟨ps, hps, hcs⟩ := ih
      exact ⟨p :: ps, .cons hp hps, hc.append hcs⟩

/-- A printed string is a string token with that text. -/
theorem written_renderText (text : Text) : (Token.str text).Written (renderText text) := by
  cases text with
  | none => exact half_written
  | some s =>
      obtain ⟨ps, hbody, hspells⟩ := body_escape s.toList
      exact .str hbody hspells

/-! ## Values -/

/-- Whether a token can be printed: a number has to be a numeral of the grammar. -/
def Token.Printable : Token → Prop
  | .num numeral => Numeral numeral.toList
  | _ => True

/-- Whether all the numbers in a value are numerals. -/
def Printable (v : Json) : Prop := ∀ t ∈ tokens v, t.Printable

theorem printable_ofNat (n : Nat) : Printable (ofNat n) := by
  rintro t (_ | ⟨_, h⟩)
  · simpa [Token.Printable] using numeral_toDigits n
  · cases h

theorem printable_bool (b : Bool) : Printable (bool b) := by
  rintro t (_ | ⟨_, h⟩)
  · trivial
  · cases h

theorem printable_ofString (s : String) : Printable (ofString s) := by
  rintro t (_ | ⟨_, h⟩)
  · trivial
  · cases h

theorem printable_arr {items : List Json} (h : ∀ v ∈ items, Printable v) :
    Printable (arr items) := by
  have hmore : ∀ items : List Json, (∀ v ∈ items, Printable v) →
      ∀ t ∈ moreItemTokens items, t.Printable := by
    intro items
    induction items with
    | nil => simp [moreItemTokens, Token.Printable]
    | cons v rest ih =>
        intro h
        obtain ⟨hv, hrest⟩ := List.forall_mem_cons.mp h
        exact List.forall_mem_cons.mpr ⟨trivial, List.forall_mem_append.mpr ⟨hv, ih hrest⟩⟩
  refine List.forall_mem_cons.mpr ⟨trivial, ?_⟩
  cases items with
  | nil => simp [itemTokens, Token.Printable]
  | cons v rest =>
      obtain ⟨hv, hrest⟩ := List.forall_mem_cons.mp h
      exact List.forall_mem_append.mpr ⟨hv, hmore rest hrest⟩

theorem printable_obj {members : List (Text × Json)} (h : ∀ m ∈ members, Printable m.2) :
    Printable (obj members) := by
  have hmore : ∀ members : List (Text × Json), (∀ m ∈ members, Printable m.2) →
      ∀ t ∈ moreMemberTokens members, t.Printable := by
    intro members
    induction members with
    | nil => simp [moreMemberTokens, Token.Printable]
    | cons m rest ih =>
        intro h
        obtain ⟨hm, hrest⟩ := List.forall_mem_cons.mp h
        refine List.forall_mem_cons.mpr ⟨trivial, List.forall_mem_cons.mpr ⟨trivial, ?_⟩⟩
        exact List.forall_mem_cons.mpr ⟨trivial, List.forall_mem_append.mpr ⟨hm, ih hrest⟩⟩
  refine List.forall_mem_cons.mpr ⟨trivial, ?_⟩
  cases members with
  | nil => simp [memberTokens, Token.Printable]
  | cons m rest =>
      obtain ⟨hm, hrest⟩ := List.forall_mem_cons.mp h
      refine List.forall_mem_cons.mpr ⟨trivial, List.forall_mem_cons.mpr ⟨trivial, ?_⟩⟩
      exact List.forall_mem_append.mpr ⟨hm, hmore rest hrest⟩

/-! ## The indented form -/

/-- A new line is white space. -/
theorem Spaced.lineBreak {ts : List Token} {rest : List Char} (h : Spaced ts rest) (indent : Nat) :
    Spaced ts (lineBreak indent ++ rest) := by
  have hspaces : ∀ n, Spaced ts (List.replicate n ' ' ++ rest) := by
    intro n
    induction n with
    | zero => exact h
    | succ n ih => exact .space rfl ih
  exact .space rfl (hspaces _)

/-- **A printed value writes the tokens of the value**, in front of whatever comes after it. -/
theorem spaced_renderAt (v : Json) :
    (∀ t ∈ tokens v, t.Printable) → ∀ (indent : Nat) {ts : List Token} {rest : List Char},
      Spaced ts rest → Spaced (tokens v ++ ts) (renderAt indent v ++ rest) := by
  refine (tokens.mutual_induct
    (fun v => (∀ t ∈ tokens v, t.Printable) → ∀ (indent : Nat) {ts rest},
      Spaced ts rest → Spaced (tokens v ++ ts) (renderAt indent v ++ rest))
    (fun members => (∀ t ∈ memberTokens members, t.Printable) → ∀ (indent : Nat) {ts rest},
      Spaced ts rest → Spaced (memberTokens members ++ ts) (renderMembers indent members ++ rest))
    (fun members => (∀ t ∈ moreMemberTokens members, t.Printable) → ∀ (indent : Nat) {ts rest},
      Spaced ts rest →
        Spaced (moreMemberTokens members ++ ts) (renderMoreMembers indent members ++ rest))
    (fun items => (∀ t ∈ itemTokens items, t.Printable) → ∀ (indent : Nat) {ts rest},
      Spaced ts rest → Spaced (itemTokens items ++ ts) (renderItems indent items ++ rest))
    (fun items => (∀ t ∈ moreItemTokens items, t.Printable) → ∀ (indent : Nat) {ts rest},
      Spaced ts rest → Spaced (moreItemTokens items ++ ts) (renderMoreItems indent items ++ rest))
    ?null ?bool ?num ?str ?arr ?obj ?noItems ?items ?noMoreItems ?moreItems ?noMembers ?members
    ?noMoreMembers ?moreMembers).1 v
  case null => exact fun _ indent _ _ h => h.token .null
  case bool =>
    intro b _ indent ts rest h
    cases b with
    | true => exact h.token .true
    | false => exact h.token .false
  case num =>
    intro numeral hnum indent ts rest h
    have hwritten := Token.Written.num (hnum (.num numeral) List.mem_cons_self)
    rw [String.ofList_toList] at hwritten
    exact h.token hwritten
  case str => exact fun text _ indent _ _ h => h.token (written_renderText text)
  case arr =>
    intro items ih hnum indent ts rest h
    exact (ih (List.forall_mem_cons.mp hnum).2 indent h).mark rfl
  case obj =>
    intro members ih hnum indent ts rest h
    exact (ih (List.forall_mem_cons.mp hnum).2 indent h).mark rfl
  case noItems => exact fun _ indent _ _ h => h.mark rfl
  case noMembers => exact fun _ indent _ _ h => h.mark rfl
  case items =>
    intro v more hv hmore hnum indent ts rest h
    obtain ⟨hnumv, hnummore⟩ := List.forall_mem_append.mp hnum
    have hrest := hv hnumv (indent + 1) (hmore hnummore indent h)
    rw [itemTokens, renderItems, List.append_assoc, List.append_assoc, List.append_assoc]
    exact hrest.lineBreak (indent + 1)
  case noMoreItems =>
    intro _ indent ts rest h
    have hend := (h.mark (c := ']') rfl).lineBreak indent
    rw [moreItemTokens, renderMoreItems, List.append_assoc]
    exact hend
  case moreItems =>
    intro v more hv hmore hnum indent ts rest h
    obtain ⟨hnumv, hnummore⟩ := List.forall_mem_append.mp (List.forall_mem_cons.mp hnum).2
    have hrest := hv hnumv (indent + 1) (hmore hnummore indent h)
    have hcomma := (hrest.lineBreak (indent + 1)).mark (c := ',') rfl
    simpa [moreItemTokens, renderMoreItems] using hcomma
  case members =>
    intro key v more hv hmore hnum indent ts rest h
    obtain ⟨_, hnum⟩ := List.forall_mem_cons.mp hnum
    obtain ⟨hnumv, hnummore⟩ := List.forall_mem_append.mp (List.forall_mem_cons.mp hnum).2
    have hrest := hv hnumv (indent + 1) (hmore hnummore indent h)
    have hkey := ((hrest.space (c := ' ') rfl).mark (c := ':') rfl).token (written_renderText key)
    simpa [memberTokens, renderMembers] using hkey.lineBreak (indent + 1)
  case noMoreMembers =>
    intro _ indent ts rest h
    have hend := (h.mark (c := '\x7d') rfl).lineBreak indent
    rw [moreMemberTokens, renderMoreMembers, List.append_assoc]
    exact hend
  case moreMembers =>
    intro key v more hv hmore hnum indent ts rest h
    obtain ⟨_, hnum⟩ := List.forall_mem_cons.mp (List.forall_mem_cons.mp hnum).2
    obtain ⟨hnumv, hnummore⟩ := List.forall_mem_append.mp (List.forall_mem_cons.mp hnum).2
    have hrest := hv hnumv (indent + 1) (hmore hnummore indent h)
    have hkey := ((hrest.space (c := ' ') rfl).mark (c := ':') rfl).token (written_renderText key)
    simpa [moreMemberTokens, renderMoreMembers] using
      (hkey.lineBreak (indent + 1)).mark (c := ',') rfl

/-- **The indented form of a value writes the value**, also with white space after it. -/
theorem writes_render {v : Json} (hv : Printable v) {space : String}
    (hspace : ∀ c ∈ space.toList, isSpace c = true) : Writes v (v.render ++ space) := by
  have h := spaced_renderAt v hv 0 (.done hspace)
  rw [List.append_nil] at h
  rw [Writes, String.toList_append, render, String.toList_ofList]
  exact h

end TextConsole.Json
