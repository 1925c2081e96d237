import TextConsole.Proofs.Json.Grammar
import Mathlib.Data.List.Chain

/-!
# Tokens are found

The machine that cuts a text into tokens finds those that stand in it
(`Spaced.tokens?_eq`). A word ends only with the character after it, so a word that has been
read completely may still be open, and the machine holds the tokens in one of two forms
(`Lexer.Holds`). Two words side by side would run together: no two may be neighbours.
-/

namespace TextConsole.Json

/-- Whether a token is a run of characters of words. -/
def Token.isWord : Token → Bool
  | .null => true
  | .bool _ => true
  | .num _ => true
  | _ => false

/-- Whether two tokens can stand side by side. -/
def Token.Apart (t u : Token) : Prop := t.isWord = false ∨ u.isWord = false

namespace Lexer

variable {l : Lexer} {ts : List Token}

/-- Whether a machine has read the given tokens, the latest first, where a word that is
complete may still be open. -/
def Holds (l : Lexer) (ts : List Token) : Prop :=
  l = ⟨.between, ts⟩ ∨
    ∃ read t before, l = ⟨.word read, before⟩ ∧ word? read.reverse = some t ∧ ts = t :: before

/-- A character that is not one of words closes the word that is open. -/
theorem Holds.step (h : l.Holds ts) {c : Char} (hc : isWordChar c = false) :
    l.step c = begin ts c := by
  obtain rfl | ⟨read, t, before, rfl, hword, rfl⟩ := h
  · rfl
  · simp [Lexer.step, hc, hword]

theorem Holds.finish? (h : l.Holds ts) : l.finish? = some ts.reverse := by
  obtain rfl | ⟨read, t, before, rfl, hword, rfl⟩ := h
  · rfl
  · simp [Lexer.finish?, hword]

/-! ## White space and punctuation -/

theorem not_isWordChar_of_isSpace {c : Char} (h : isSpace c = true) : isWordChar c = false := by
  simp only [isSpace, Bool.or_eq_true, decide_eq_true_eq] at h
  rcases h with ((rfl | rfl) | rfl) | rfl <;> rfl

/-- White space closes words and leaves no other trace. -/
theorem Holds.space (h : l.Holds ts) : ∀ {space : List Char}, (∀ c ∈ space, isSpace c = true) →
    ∃ l', space.foldlM Lexer.step l = some l' ∧ l'.Holds ts ∧ (l' = ⟨.between, ts⟩ ∨ l' = l) := by
  intro space hspace
  induction space generalizing l with
  | nil => exact ⟨l, rfl, h, Or.inr rfl⟩
  | cons c space ih =>
      obtain ⟨hc, hrest⟩ := List.forall_mem_cons.mp hspace
      have hstep : l.step c = some ⟨.between, ts⟩ := by
        rw [h.step (not_isWordChar_of_isSpace hc), begin, if_pos hc]
      obtain ⟨l', hrun, hl', hwhere⟩ := ih (l := ⟨.between, ts⟩) (Or.inl rfl) hrest
      refine ⟨l', ?_, hl', Or.inl (hwhere.elim id id)⟩
      rw [List.foldlM_cons, hstep]
      exact hrun

theorem Holds.punctuation (h : l.Holds ts) {c : Char} {t : Token} (hc : punctuation? c = some t) :
    l.step c = some ⟨.between, t :: ts⟩ := by
  have hplain : isWordChar c = false ∧ isSpace c = false ∧ c ≠ '"' := by
    unfold punctuation? at hc
    split at hc
    all_goals first
      | exact ⟨rfl, rfl, by decide⟩
      | cases hc
  obtain ⟨hword, hspace, hquote⟩ := hplain
  rw [h.step hword, begin, if_neg (by simp [hspace]), if_neg hquote, if_neg (by simp [hword]), hc]
  rfl

/-! ## Words -/

theorem foldlM_word (before : List Token) : ∀ {w read : List Char},
    (∀ c ∈ w, isWordChar c = true) →
      w.foldlM Lexer.step ⟨.word read, before⟩ = some ⟨.word (w.reverse ++ read), before⟩ := by
  intro w
  induction w with
  | nil => exact fun _ => rfl
  | cons c w ih =>
      intro read hw
      obtain ⟨hc, hw⟩ := List.forall_mem_cons.mp hw
      have hstep : Lexer.step ⟨.word read, before⟩ c = some ⟨.word (c :: read), before⟩ :=
        if_pos hc
      rw [List.foldlM_cons, hstep, List.reverse_cons, List.append_assoc]
      exact ih hw

/-- A word is read where no other word is open. -/
theorem word (ts : List Token) {w : List Char} {t : Token} (hne : w ≠ [])
    (hw : ∀ c ∈ w, isWordChar c = true) (ht : word? w = some t) :
    ∃ l', w.foldlM Lexer.step ⟨.between, ts⟩ = some l' ∧ l'.Holds (t :: ts) := by
  obtain ⟨c, w, rfl⟩ := List.exists_cons_of_ne_nil hne
  obtain ⟨hc, hrest⟩ := List.forall_mem_cons.mp hw
  have hplain : isSpace c = false ∧ c ≠ '"' := by
    refine ⟨?_, ?_⟩
    · by_contra hspace
      rw [Bool.not_eq_false] at hspace
      rw [not_isWordChar_of_isSpace hspace] at hc
      cases hc
    · rintro rfl
      cases hc
  have hbegin : Lexer.step ⟨.between, ts⟩ c = some ⟨.word [c], ts⟩ := by
    show begin ts c = _
    rw [begin, if_neg (by simp [hplain.1]), if_neg hplain.2, if_pos hc]
  refine ⟨⟨.word (w.reverse ++ [c]), ts⟩, ?_, Or.inr ⟨_, t, ts, rfl, ?_, rfl⟩⟩
  · rw [List.foldlM_cons, hbegin]
    exact foldlM_word ts hrest
  · simpa using ht

theorem word?_numeral {cs : List Char} (h : Numeral cs) :
    word? cs = some (.num (String.ofList cs)) := by
  have hnumeral := h.isNumeral
  have hname : ∀ {name : List Char}, isNumeral name = false → cs ≠ name := by
    rintro name hname rfl
    rw [hnumeral] at hname
    cases hname
  rw [word?, if_neg (hname (by decide)), if_neg (hname (by decide)), if_neg (hname (by decide)),
    if_pos hnumeral]

/-! ## Strings -/

theorem insideString_plain {before : List Token} {read : List Piece} {c : Char} (hc : ' ' ≤ c)
    (hquote : c ≠ '"') (hslash : c ≠ '\\') :
    insideString before read c = some ⟨.string (.char c :: read), before⟩ := by
  rw [insideString, if_neg hquote, if_neg hslash, if_neg (Char.not_lt.mpr hc)]

/-- A piece is read. -/
theorem piece {p : Piece} {cs : List Char} (h : p.Written cs) (before : List Token)
    (read : List Piece) :
    cs.foldlM Lexer.step ⟨.string read, before⟩ = some ⟨.string (p :: read), before⟩ := by
  cases h with
  | plain hc hquote hslash =>
      rw [List.foldlM_cons]
      show (insideString before read _ >>= _) = _
      rw [insideString_plain hc hquote hslash]
      rfl
  | @letter c d hd =>
      have hu : c ≠ 'u' := by
        rintro rfl
        cases hd
      have hletter : afterBackslash before read c = some ⟨.string (.char d :: read), before⟩ := by
        rw [afterBackslash, if_neg hu, hd]
        rfl
      show (afterBackslash before read c >>= _) = _
      rw [hletter]
      rfl
  | @code c₃ c₂ c₁ c₀ d₃ d₂ d₁ d₀ h₃ h₂ h₁ h₀ =>
      have hdigit : ∀ (missing value : Nat) {c : Char} {d : Nat}, 1 < missing →
          hexDigit? c = some d → Lexer.step ⟨.code read missing value, before⟩ c =
            some ⟨.code read (missing - 1) (16 * value + d), before⟩ := by
        intro missing value c d hmissing hd
        show insideCode before read missing value c = _
        rw [insideCode, hd, Option.map_some, if_neg (by omega)]
      have hlast : ∀ {value : Nat}, Lexer.step ⟨.code read 1 value, before⟩ c₀ =
          some ⟨.string (.unit (16 * value + d₀) :: read), before⟩ := by
        intro value
        show insideCode before read 1 value c₀ = _
        rw [insideCode, h₀]
        rfl
      have hopen : ['\\', 'u'].foldlM Lexer.step ⟨.string read, before⟩ =
          some ⟨.code read 4 0, before⟩ := rfl
      have hfirst : Lexer.step ⟨.code read 4 0, before⟩ c₃ = some ⟨.code read 3 d₃, before⟩ := by
        have hstep := hdigit 4 0 (by omega) h₃
        rwa [Nat.mul_zero, Nat.zero_add] at hstep
      have hsecond := hdigit 3 d₃ (by omega) h₂
      have hthird := hdigit 2 (16 * d₃ + d₂) (by omega) h₁
      show (['\\', 'u'] ++ [c₃, c₂, c₁, c₀]).foldlM Lexer.step _ = _
      simp only [List.foldlM_append, hopen, Option.bind_eq_bind, Option.bind_some,
        List.foldlM_cons, List.foldlM_nil, hfirst, hsecond, hthird, hlast]
      rfl

theorem body {ps : List Piece} {cs : List Char} (h : Body ps cs) (before : List Token) :
    ∀ read : List Piece, cs.foldlM Lexer.step ⟨.string read, before⟩ =
      some ⟨.string (ps.reverse ++ read), before⟩ := by
  induction h with
  | nil => exact fun _ => rfl
  | cons hp _ ih =>
      intro read
      rw [List.foldlM_append, piece hp, List.reverse_cons, List.append_assoc]
      exact ih _

theorem Holds.string (h : l.Holds ts) {ps : List Piece} {cs : List Char} (hbody : Body ps cs) :
    ('"' :: (cs ++ ['"'])).foldlM Lexer.step l =
      some ⟨.between, .str (textOf ps.reverse) :: ts⟩ := by
  have hopen : l.step '"' = some ⟨.string [], ts⟩ := by
    rw [h.step rfl]
    rfl
  rw [List.foldlM_cons, hopen]
  show (cs ++ ['"']).foldlM Lexer.step ⟨.string [], ts⟩ = _
  rw [List.foldlM_append, body hbody, List.append_nil]
  rfl

/-! ## Tokens -/

/-- A token is read, unless it is a word right after a word. -/
theorem Holds.token (h : l.Holds ts) {t : Token} {cs : List Char} (ht : t.Written cs)
    (hopen : t.isWord = true → l = ⟨.between, ts⟩) :
    ∃ l', cs.foldlM Lexer.step l = some l' ∧ l'.Holds (t :: ts) ∧
      (t.isWord = false → l' = ⟨.between, t :: ts⟩) := by
  have named : ∀ {w : List Char} {t : Token}, l = ⟨.between, ts⟩ → w ≠ [] →
      (∀ c ∈ w, isWordChar c = true) → word? w = some t → t.isWord = true →
        ∃ l', w.foldlM Lexer.step l = some l' ∧ l'.Holds (t :: ts) ∧
          (t.isWord = false → l' = ⟨.between, t :: ts⟩) := by
    rintro w t rfl hne hw hword ht
    obtain ⟨l', hrun, hl'⟩ := word ts hne hw hword
    exact ⟨l', hrun, hl', fun hfalse => by rw [ht] at hfalse; cases hfalse⟩
  have quoted : ∀ {ps : List Piece} {cs : List Char} {text : Text}, Body ps cs →
      textOf ps.reverse = text → ∃ l', ('"' :: (cs ++ ['"'])).foldlM Lexer.step l = some l' ∧
        l'.Holds (.str text :: ts) ∧
          ((Token.str text).isWord = false → l' = ⟨.between, .str text :: ts⟩) := by
    rintro ps cs text hbody rfl
    exact ⟨_, h.string hbody, Or.inl rfl, fun _ => rfl⟩
  cases ht with
  | punctuation hc =>
      refine ⟨⟨.between, t :: ts⟩, ?_, Or.inl rfl, fun _ => rfl⟩
      rw [List.foldlM_cons, h.punctuation hc]
      rfl
  | null => exact named (hopen rfl) (by decide) (List.all_eq_true.mp rfl) rfl rfl
  | true => exact named (hopen rfl) (by decide) (List.all_eq_true.mp rfl) rfl rfl
  | false => exact named (hopen rfl) (by decide) (List.all_eq_true.mp rfl) rfl rfl
  | num hcs => exact named (hopen rfl) hcs.ne_nil hcs.isWordChar (word?_numeral hcs) rfl
  | str hbody hs => exact quoted hbody hs.textOf_reverse
  | halves hbody hnone => exact quoted hbody (textOf_reverse_of_not_spells hnone)

/-- **Tokens that stand in a text are found**, where no two words are neighbours. -/
theorem Holds.spaced {later : List Token} {text : List Char} (htext : Spaced later text) :
    ∀ {l : Lexer} {ts : List Token}, l.Holds ts → later.IsChain Token.Apart →
      (∀ t ∈ later.head?, t.isWord = true → l = ⟨.between, ts⟩) →
        ∃ l', text.foldlM Lexer.step l = some l' ∧ l'.Holds (later.reverse ++ ts) := by
  induction htext with
  | done hspace =>
      intro l ts h _ _
      obtain ⟨l', hrun, hl', _⟩ := h.space hspace
      exact ⟨l', hrun, hl'⟩
  | @next space cs rest t later hspace ht _ ih =>
      -- A word needs a machine with none open: white space closes it, or else the token before
      -- was no word.
      intro l ts h hchain hfirst
      obtain ⟨happart, hrest⟩ := List.isChain_cons.mp hchain
      obtain ⟨l₁, hrun₁, hl₁, hwhere⟩ := h.space hspace
      obtain ⟨l₂, hrun₂, hl₂, hclear⟩ := hl₁.token ht (by
        intro hword
        rcases hwhere with rfl | rfl
        · rfl
        · exact hfirst t rfl hword)
      obtain ⟨l₃, hrun₃, hl₃⟩ := ih hl₂ hrest (by
        intro u hu hword
        refine hclear ((happart u hu).resolve_right ?_)
        simp [hword])
      refine ⟨l₃, ?_, ?_⟩
      · rw [List.foldlM_append, hrun₁, Option.bind_eq_bind, Option.bind_some,
          List.foldlM_append, hrun₂, Option.bind_eq_bind, Option.bind_some, hrun₃]
      · rw [List.reverse_cons, List.append_assoc]
        exact hl₃

end Lexer

/-- **A text is cut into its tokens.** -/
theorem Spaced.tokens?_eq {ts : List Token} {text : List Char} (h : Spaced ts text)
    (hchain : ts.IsChain Token.Apart) : tokens? text = some ts := by
  have hnew : Lexer.Holds {} [] := Or.inl rfl
  obtain ⟨l, hrun, hl⟩ := Lexer.Holds.spaced h hnew hchain fun _ _ _ => rfl
  rw [tokens?, hrun, Option.bind_eq_bind, Option.bind_some, hl.finish?, List.append_nil,
    List.reverse_reverse]

end TextConsole.Json
