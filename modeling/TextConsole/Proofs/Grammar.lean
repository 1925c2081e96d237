import Mathlib.Data.List.Basic
import Mathlib.Data.List.Induction
import Mathlib.Data.Nat.Digits.Defs
import TextConsole.Escape

/-!
# The grammar of escape sequences

What follows the escape of a sequence is one byte other than a bracket, or a bracket, a text
of digits and separators, and a byte that is neither (`Escape.Spells`). The parameters are the
first two fields of the text between separators, each read as a number of any size and cut off
at the limit (`Escape.parameter`).

Bytes are taken one after the other (`Escape.scan`). A sequence is found with the last byte of
the first word that spells one, and nothing is found before it, after it, or in a text that
starts with no such word (`Escape.State.scan_of_spells`, `Escape.State.scan_of_not_spells`).
-/

namespace TextConsole.Escape

/-! ## Digits -/

/-- Whether a byte is a decimal digit. -/
def IsDigit (byte : UInt8) : Prop := 0x30 ≤ byte ∧ byte ≤ 0x39

instance (byte : UInt8) : Decidable (IsDigit byte) := inferInstanceAs (Decidable (_ ∧ _))

/-- The number that digits write. -/
def decimal (digits : List UInt8) : Nat :=
  Nat.ofDigits 10 (digits.reverse.map fun byte => byte.toNat - 0x30)

theorem digit?_of_isDigit {byte : UInt8} (h : IsDigit byte) :
    digit? byte = some (byte.toNat - 0x30) := if_pos h

theorem digit?_of_not_isDigit {byte : UInt8} (h : ¬ IsDigit byte) : digit? byte = none := if_neg h

theorem decimal_concat (digits : List UInt8) (byte : UInt8) :
    decimal (digits ++ [byte]) = 10 * decimal digits + (byte.toNat - 0x30) := by
  rw [decimal, List.reverse_concat, List.map_cons, Nat.ofDigits_cons, Nat.add_comm]
  rfl

/-- A parameter that has reached the limit stays there. -/
theorem appendDigit_min (value digit : Nat) :
    appendDigit (min value parameterLimit) digit = min (10 * value + digit) parameterLimit := by
  unfold appendDigit
  omega

/-! ## Fields -/

/-- Whether a byte belongs to the parameters of a sequence. -/
def IsParameter (byte : UInt8) : Prop := IsDigit byte ∨ byte = 0x3B

instance (byte : UInt8) : Decidable (IsParameter byte) := inferInstanceAs (Decidable (_ ∨ _))

/-- The digits of parameter `i`, of those that the separators divide. A parameter that is not
there has none. -/
def field (text : List UInt8) (i : Nat) : List UInt8 := (text.splitOn 0x3B).getD i []

/-- The value of parameter `i`. -/
def parameter (text : List UInt8) (i : Nat) : Nat := min (decimal (field text i)) parameterLimit

variable {byte : UInt8} {text : List UInt8} {i : Nat}

theorem field_nil (i : Nat) : field [] i = [] := by
  cases i <;> rfl

theorem field_separator_cons_zero : field (0x3B :: text) 0 = [] := by
  rw [field, List.splitOn_cons_eq_if_modifyHead, if_pos (by rfl)]
  rfl

theorem field_separator_cons_succ : field (0x3B :: text) (i + 1) = field text i := by
  rw [field, List.splitOn_cons_eq_if_modifyHead, if_pos (by rfl)]
  rfl

theorem field_cons_of_ne (h : byte ≠ 0x3B) :
    field (byte :: text) i = if i = 0 then byte :: field text 0 else field text i := by
  rw [field, List.splitOn_cons_eq_if_modifyHead, if_neg (by simpa using h)]
  obtain ⟨first, rest, hsplit⟩ := List.exists_cons_of_ne_nil
    (List.splitOn_ne_nil (0x3B : UInt8) text)
  simp only [field, hsplit, List.modifyHead_cons]
  cases i <;> rfl

/-- A separator at the end starts a field without digits. -/
theorem field_concat_separator : field (text ++ [0x3B]) i = field text i := by
  induction text generalizing i with
  | nil =>
      cases i with
      | zero => rw [List.nil_append, field_separator_cons_zero, field_nil]
      | succ i => rw [List.nil_append, field_separator_cons_succ, field_nil, field_nil]
  | cons first text ih =>
      by_cases hfirst : first = 0x3B
      · subst hfirst
        cases i with
        | zero => rw [List.cons_append, field_separator_cons_zero, field_separator_cons_zero]
        | succ i => rw [List.cons_append, field_separator_cons_succ, field_separator_cons_succ, ih]
      · rw [List.cons_append, field_cons_of_ne hfirst, field_cons_of_ne hfirst, ih, ih]

/-- Any other byte at the end belongs to the field after the last separator. -/
theorem field_concat_of_ne (h : byte ≠ 0x3B) :
    field (text ++ [byte]) i =
      if i = text.count 0x3B then field text i ++ [byte] else field text i := by
  induction text generalizing i with
  | nil =>
      rw [List.nil_append, field_cons_of_ne h, List.count_nil, field_nil, field_nil]
      rfl
  | cons first text ih =>
      by_cases hfirst : first = 0x3B
      · subst hfirst
        rw [List.cons_append, List.count_cons_self]
        cases i with
        | zero =>
            rw [field_separator_cons_zero, field_separator_cons_zero,
              if_neg (Nat.succ_ne_zero _).symm]
        | succ i =>
            rw [field_separator_cons_succ, field_separator_cons_succ, ih]
            simp only [Nat.succ_inj]
      · rw [List.cons_append, field_cons_of_ne hfirst, field_cons_of_ne hfirst, ih, ih,
          List.count_cons_of_ne hfirst]
        by_cases hi : i = 0
        · subst hi
          rw [if_pos rfl, if_pos rfl]
          split <;> rfl
        · rw [if_neg hi, if_neg hi]

/-! ## Bytes one after the other -/

/-- Takes bytes one after the other: the state that they lead to and, for each of them, the
sequence that it finishes, if it finishes one. -/
def scan {σ : Type} (step : σ → UInt8 → σ × Option Sequence) (state : σ) :
    List UInt8 → σ × List (Option Sequence)
  | [] => (state, [])
  | byte :: bytes =>
      let next := step state byte
      let rest := scan step next.1 bytes
      (rest.1, next.2 :: rest.2)

theorem scan_append {σ : Type} (step : σ → UInt8 → σ × Option Sequence) (state : σ)
    (xs ys : List UInt8) :
    scan step state (xs ++ ys) =
      ((scan step (scan step state xs).1 ys).1,
        (scan step state xs).2 ++ (scan step (scan step state xs).1 ys).2) := by
  induction xs generalizing state with
  | nil => rfl
  | cons byte xs ih => simp only [List.cons_append, scan, ih]

/-- The slot of the digits behind some separators. -/
def Slot.behind : Nat → Slot
  | 0 => first
  | 1 => second
  | _ => dropped

theorem Slot.next_behind (n : Nat) : (behind n).next = behind (n + 1) := by
  match n with
  | 0 | 1 | _ + 2 => rfl

namespace State

/-- Outside any sequence bytes finish none. -/
theorem scan_ground (bytes : List UInt8) :
    scan advance ground bytes = (ground, List.replicate bytes.length none) := by
  induction bytes with
  | nil => rfl
  | cons byte bytes ih =>
      simp only [scan, advance, ih, List.length_cons, List.replicate_succ]

/-- Bytes that leave the end of a sequence open were sent inside it. -/
theorem isCollecting_of_scan {state : State} (bytes : List UInt8)
    (h : (scan advance state bytes).1.isCollecting = true) : state.isCollecting = true := by
  cases state with
  | ground =>
      rw [scan_ground] at h
      cases h
  | afterEscape | inBracket => rfl

/-- A byte that finishes a sequence leads out of it. -/
theorem snd_advance_of_isCollecting {state : State} {byte : UInt8}
    (h : (state.advance byte).1.isCollecting = true) : (state.advance byte).2 = none := by
  cases state with
  | ground => rfl
  | afterEscape =>
      simp only [advance] at h ⊢
      by_cases hbracket : byte = 0x5B
      · rw [if_pos hbracket]
      · rw [if_neg hbracket] at h
        cases h
  | inBracket first second slot =>
      simp only [advance] at h ⊢
      cases hdigit : digit? byte with
      | some digit => rfl
      | none =>
          simp only [hdigit] at h ⊢
          by_cases hseparator : byte = 0x3B
          · rw [if_pos hseparator]
          · rw [if_neg hseparator] at h
            cases h

/-- One more digit of the parameter in progress. -/
theorem addDigit_behind {text : List UInt8} {byte : UInt8} (h : IsDigit byte) :
    addDigit (parameter text 0) (parameter text 1) (.behind (text.count 0x3B))
        (byte.toNat - 0x30) =
      inBracket (parameter (text ++ [byte]) 0) (parameter (text ++ [byte]) 1)
        (.behind (text.count 0x3B)) := by
  have hne : byte ≠ 0x3B := by
    rintro rfl
    exact absurd h (by decide)
  unfold parameter
  rw [field_concat_of_ne hne, field_concat_of_ne hne]
  generalize text.count 0x3B = n
  match n with
  | 0 | 1 =>
      simp only [Slot.behind, addDigit, appendDigit_min, ← decimal_concat, if_pos, if_false,
        zero_ne_one, one_ne_zero]
  | n + 2 =>
      rw [if_neg (by omega), if_neg (by omega)]
      rfl

/-- **Parameters are collected field by field**, whatever their number and their length. -/
theorem scan_parameters {text : List UInt8} (h : ∀ byte ∈ text, IsParameter byte) :
    scan advance (inBracket 0 0 .first) text =
      (inBracket (parameter text 0) (parameter text 1) (.behind (text.count 0x3B)),
        List.replicate text.length none) := by
  induction text using List.reverseRecOn with
  | nil => rfl
  | append_singleton text byte ih =>
      obtain ⟨hfirst, hlast⟩ := List.forall_mem_append.mp h
      rw [scan_append, ih hfirst, List.length_append, List.length_singleton, List.replicate_succ']
      rcases hlast byte List.mem_cons_self with hdigit | rfl
      · have hne : byte ≠ 0x3B := by
          rintro rfl
          exact absurd hdigit (by decide)
        simp only [scan, advance, digit?_of_isDigit hdigit, addDigit_behind hdigit]
        rw [List.count_append, List.count_singleton, if_neg (by simpa using hne)]
        rfl
      · simp only [scan, advance, digit?_of_not_isDigit (by decide : ¬ IsDigit 0x3B), if_true,
          Slot.next_behind]
        unfold parameter
        rw [field_concat_separator, field_concat_separator, List.count_append]
        rfl

/-- A bracket after the escape starts the parameters anew. -/
theorem scan_bracket_cons (text : List UInt8) :
    scan advance afterEscape (0x5B :: text) =
      ((scan advance (inBracket 0 0 .first) text).1,
        none :: (scan advance (inBracket 0 0 .first) text).2) := rfl

end State

/-! ## Words -/

/-- The words that spell a sequence once an escape has been seen. -/
inductive Spells : List UInt8 → Sequence → Prop
  | bare {final : UInt8} (hfinal : final ≠ 0x5B) : Spells [final] ⟨.bare, 0, 0, final⟩
  | bracket {text : List UInt8} {final : UInt8} (htext : ∀ byte ∈ text, IsParameter byte)
      (hfinal : ¬ IsParameter final) :
      Spells (0x5B :: (text ++ [final]))
        ⟨.bracket, parameter text 0, parameter text 1, final⟩

variable {word rest : List UInt8} {sequence sequence' : Sequence}

/-- The last byte of a word finds its sequence in a state that still collects. -/
theorem Spells.exists_last (h : Spells word sequence) :
    ∃ start final state, word = start ++ [final] ∧
      scan State.advance .afterEscape start = (state, List.replicate start.length none) ∧
      state.isCollecting = true ∧ state.advance final = (.ground, some sequence) := by
  cases h with
  | @bare final hfinal => exact ⟨[], final, .afterEscape, rfl, rfl, rfl, if_neg hfinal⟩
  | @bracket text final htext hfinal =>
      obtain ⟨hdigit, hseparator⟩ := not_or.mp hfinal
      refine ⟨0x5B :: text, final,
        .inBracket (parameter text 0) (parameter text 1) (.behind (text.count 0x3B)),
        rfl, ?_, rfl, ?_⟩
      · rw [State.scan_bracket_cons, State.scan_parameters htext]
        rfl
      · simp only [State.advance, digit?_of_not_isDigit hdigit, if_neg hseparator]

/-- **A word finds its sequence with its last byte**, and what follows finds nothing. -/
theorem Spells.scan_append (h : Spells word sequence) (rest : List UInt8) :
    scan State.advance .afterEscape (word ++ rest) =
      (.ground, List.replicate (word.length - 1) none ++
        some sequence :: List.replicate rest.length none) := by
  obtain ⟨start, final, state, rfl, hstart, _, hfinal⟩ := h.exists_last
  rw [List.append_assoc, Escape.scan_append, hstart, List.length_append, List.length_singleton,
    Nat.add_sub_cancel, List.singleton_append, scan]
  simp only [hfinal, State.scan_ground]

/-- No word is the start of another one. -/
theorem Spells.eq_nil_of_append (h : Spells word sequence) (h' : Spells (word ++ rest) sequence') :
    rest = [] := by
  have hscan := h.scan_append rest
  have hscan' := h'.scan_append []
  rw [List.append_nil, hscan] at hscan'
  have hlists := congrArg Prod.snd hscan'
  rcases List.eq_nil_or_concat' rest with hnil | ⟨start, last, rfl⟩
  · exact hnil
  · have hlast := congrArg List.getLast? hlists
    simp [List.getLast?_cons, List.getLast?_replicate] at hlast

/-- A text is parameters throughout, or there is a first byte that is none of them. -/
theorem parameters_or_final (text : List UInt8) :
    (∀ byte ∈ text, IsParameter byte) ∨
      ∃ start final rest, text = start ++ final :: rest ∧ (∀ byte ∈ start, IsParameter byte) ∧
        ¬ IsParameter final := by
  induction text with
  | nil => exact Or.inl (List.forall_mem_nil _)
  | cons byte text ih =>
      by_cases hbyte : IsParameter byte
      · rcases ih with hall | ⟨start, final, rest, rfl, hstart, hfinal⟩
        · exact Or.inl (List.forall_mem_cons.mpr ⟨hbyte, hall⟩)
        · exact Or.inr ⟨byte :: start, final, rest, rfl,
            List.forall_mem_cons.mpr ⟨hbyte, hstart⟩, hfinal⟩
      · exact Or.inr ⟨[], byte, text, rfl, List.forall_mem_nil _, hbyte⟩

/-- **A text that starts with no word finds nothing**, and its end is waited for. -/
theorem State.scan_of_not_spells {text : List UInt8}
    (h : ∀ word sequence, word <+: text → ¬ Spells word sequence) :
    (scan advance afterEscape text).1.isCollecting = true ∧
      (scan advance afterEscape text).2 = List.replicate text.length none := by
  cases text with
  | nil => exact ⟨rfl, rfl⟩
  | cons byte text =>
      have hbracket : byte = 0x5B := by
        by_contra hne
        exact h [byte] _ ⟨text, rfl⟩ (.bare hne)
      subst hbracket
      rcases parameters_or_final text with hall | ⟨start, final, rest, rfl, hstart, hfinal⟩
      · rw [scan_bracket_cons, scan_parameters hall]
        exact ⟨rfl, rfl⟩
      · refine absurd (Spells.bracket hstart hfinal) (h _ _ ⟨rest, ?_⟩)
        rw [List.cons_append, List.append_assoc, List.singleton_append]

end TextConsole.Escape
