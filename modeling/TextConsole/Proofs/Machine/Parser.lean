import TextConsole.Proofs.Grammar

/-!
# A parser with registers

The collecting of escape sequences as a machine carries it out, in registers that are written
but never cleared when a sequence is over: the next sequence begins among what earlier ones
have left. A parameter is a number of 32 bits whose product with ten and whose sum with a digit
saturate. The index of the parameter in progress stops behind the last one, and what is stored
there is lost.

From the second byte on, the registers hold what a state of the collecting knows
(`RawParser.Shows`). So nothing that they held before makes a difference, and a parser finds
exactly what the grammar says (`sequences_follow_grammar`).
-/

namespace TextConsole.Escape

/-- Where a parser stands. -/
inductive Phase where
  | ground
  | afterEscape
  | inBracket
deriving DecidableEq, Repr

/-- The registers of a parser. -/
structure RawParser where
  phase : Phase := .ground
  introducer : Introducer := .bare
  parameters : Array Nat := #[0, 0]
  /-- The parameter that the next digit belongs to. -/
  index : Nat := 0
deriving DecidableEq, Repr

/-- The product of 32 bits, the largest number if it is too large. -/
def saturatedMul (a b : Nat) : Nat := min (a * b) parameterLimit

/-- The sum of 32 bits, the largest number if it is too large. -/
def saturatedAdd (a b : Nat) : Nat := min (a + b) parameterLimit

theorem saturatedAdd_saturatedMul (value digit : Nat) :
    saturatedAdd (saturatedMul value 10) digit = appendDigit value digit := by
  unfold saturatedAdd saturatedMul appendDigit
  omega

namespace RawParser

/-- An escape has been seen. Only the phase changes. -/
def begin (p : RawParser) : RawParser := { p with phase := .afterEscape }

def finish (p : RawParser) (final : UInt8) : RawParser × Option Sequence :=
  ({ p with phase := .ground },
    some ⟨p.introducer, p.parameters.getD 0 0, p.parameters.getD 1 0, final⟩)

/-- Clears the registers for a sequence. -/
def clear (p : RawParser) : RawParser :=
  { p with introducer := .bare, parameters := #[0, 0], index := 0 }

def addDigit (p : RawParser) (digit : Nat) : RawParser :=
  { p with
    parameters := p.parameters.modify p.index fun value =>
      saturatedAdd (saturatedMul value 10) digit }

/-- Goes on to the next parameter, if there is one. -/
def nextParameter (p : RawParser) : RawParser :=
  let index := if p.index < 2 then p.index + 1 else p.index
  { p with index := index, parameters := p.parameters.setIfInBounds index 0 }

def advance (p : RawParser) (byte : UInt8) : RawParser × Option Sequence :=
  match p.phase with
  | .ground => (p, none)
  | .afterEscape =>
      let p := p.clear
      if byte = 0x5B then ({ p with introducer := .bracket, phase := .inBracket }, none)
      else p.finish byte
  | .inBracket =>
      match digit? byte with
      | some digit => (p.addDigit digit, none)
      | none => if byte = 0x3B then (p.nextParameter, none) else p.finish byte

end RawParser

/-! ## What the registers hold -/

/-- The index of a slot. -/
def Slot.index : Slot → Nat
  | first => 0
  | second => 1
  | dropped => 2

namespace RawParser

variable {p : RawParser} {state : State} {byte : UInt8} {first second : Nat} {slot : Slot}

/-- Whether the registers hold what a state knows. Outside of brackets that is the phase
alone. -/
def Shows (p : RawParser) : State → Prop
  | .ground => p.phase = .ground
  | .afterEscape => p.phase = .afterEscape
  | .inBracket first second slot =>
      p.phase = .inBracket ∧ p.introducer = .bracket ∧ p.parameters = #[first, second] ∧
        p.index = slot.index ∧ (slot = .first → second = 0)

theorem shows_begin (p : RawParser) : p.begin.Shows .afterEscape := rfl

theorem Shows.phase_eq_ground_iff (h : p.Shows state) : p.phase = .ground ↔ state = .ground := by
  cases state with
  | ground => exact iff_of_true h rfl
  | afterEscape => exact iff_of_false (by rw [show p.phase = _ from h]; nofun) nofun
  | inBracket => exact iff_of_false (by rw [h.1]; nofun) nofun

theorem Shows.addDigit (h : p.Shows (.inBracket first second slot)) (digit : Nat) :
    (p.addDigit digit).Shows (State.addDigit first second slot digit) := by
  obtain ⟨hphase, hintroducer, hparameters, hindex, hsecond⟩ := h
  cases slot with
  | first =>
      refine ⟨hphase, hintroducer, ?_, hindex, hsecond⟩
      simp only [RawParser.addDigit, hparameters, hindex, saturatedAdd_saturatedMul]
      rfl
  | second =>
      refine ⟨hphase, hintroducer, ?_, hindex, nofun⟩
      simp only [RawParser.addDigit, hparameters, hindex, saturatedAdd_saturatedMul]
      rfl
  | dropped =>
      refine ⟨hphase, hintroducer, ?_, hindex, nofun⟩
      simp only [RawParser.addDigit, hparameters, hindex]
      rfl

/-- The second parameter is zero already when the machine sets it to zero. -/
theorem Shows.nextParameter (h : p.Shows (.inBracket first second slot)) :
    p.nextParameter.Shows (.inBracket first second slot.next) := by
  obtain ⟨hphase, hintroducer, hparameters, hindex, hsecond⟩ := h
  unfold RawParser.nextParameter
  rw [hindex, hparameters]
  cases slot with
  | first =>
      rw [hsecond rfl]
      exact ⟨hphase, hintroducer, rfl, rfl, nofun⟩
  | second | dropped => exact ⟨hphase, hintroducer, rfl, rfl, nofun⟩

/-- **A byte does to the registers what it does to the state.** -/
theorem Shows.advance (h : p.Shows state) (byte : UInt8) :
    (p.advance byte).1.Shows (state.advance byte).1 ∧
      (p.advance byte).2 = (state.advance byte).2 := by
  cases state with
  | ground =>
      have hphase : p.phase = .ground := h
      simp only [RawParser.advance, hphase]
      exact ⟨hphase, rfl⟩
  | afterEscape =>
      have hphase : p.phase = .afterEscape := h
      simp only [RawParser.advance, State.advance, hphase]
      by_cases hbracket : byte = 0x5B
      · rw [if_pos hbracket, if_pos hbracket]
        exact ⟨⟨rfl, rfl, rfl, rfl, fun _ => rfl⟩, rfl⟩
      · rw [if_neg hbracket, if_neg hbracket]
        exact ⟨rfl, rfl⟩
  | inBracket first second slot =>
      obtain ⟨hphase, hintroducer, hparameters, _⟩ := id h
      simp only [RawParser.advance, State.advance, hphase]
      cases digit? byte with
      | some digit => exact ⟨h.addDigit digit, rfl⟩
      | none =>
          by_cases hseparator : byte = 0x3B
          · simp only [if_pos hseparator, and_true]
            exact h.nextParameter
          · simp only [if_neg hseparator, finish, hintroducer, hparameters]
            exact ⟨rfl, rfl⟩

theorem Shows.scan (h : p.Shows state) (text : List UInt8) :
    (Escape.scan RawParser.advance p text).1.Shows (Escape.scan State.advance state text).1 ∧
      (Escape.scan RawParser.advance p text).2 = (Escape.scan State.advance state text).2 := by
  induction text generalizing p state with
  | nil => exact ⟨h, rfl⟩
  | cons byte text ih =>
      obtain ⟨hnext, hfound⟩ := h.advance byte
      obtain ⟨hlast, hrest⟩ := ih hnext
      exact ⟨hlast, congrArg₂ List.cons hfound hrest⟩

end RawParser

/-! ## What is found -/

/-- **Sequences are exactly those of the grammar**, on a parser whose registers hold anything
from earlier sequences. After an escape, a text that starts with a word finds the sequence that
the word spells with the last byte of the word, and nothing else; the parser is then outside any
sequence, and no other word starts the text. A text that starts with no word finds nothing. -/
theorem sequences_follow_grammar (p : RawParser) (text : List UInt8) :
    (∀ word sequence rest, text = word ++ rest → Spells word sequence →
      (∀ word' sequence', word' <+: text → Spells word' sequence' → word' = word) ∧
      (scan State.advance .afterEscape text).1 = .ground ∧
      (scan State.advance .afterEscape text).2 =
        List.replicate (word.length - 1) none ++ some sequence :: List.replicate rest.length none) ∧
    ((∀ word sequence, word <+: text → ¬ Spells word sequence) →
      (scan State.advance .afterEscape text).1 ≠ .ground ∧
      (scan State.advance .afterEscape text).2 = List.replicate text.length none) ∧
    ((scan RawParser.advance p.begin text).1.phase = .ground ↔
      (scan State.advance .afterEscape text).1 = .ground) ∧
    (scan RawParser.advance p.begin text).2 = (scan State.advance .afterEscape text).2 := by
  obtain ⟨hshows, hfound⟩ := p.shows_begin.scan text
  refine ⟨?_, ?_, hshows.phase_eq_ground_iff, hfound⟩
  · rintro word sequence rest rfl hword
    refine ⟨fun word' sequence' hprefix hword' => ?_, ?_⟩
    · rcases List.prefix_or_prefix_of_prefix hprefix ⟨rest, rfl⟩ with ⟨more, rfl⟩ | ⟨more, rfl⟩
      · rw [hword'.eq_nil_of_append hword, List.append_nil]
      · rw [hword.eq_nil_of_append hword', List.append_nil]
    · rw [hword.scan_append rest]
      exact ⟨rfl, rfl⟩
  · intro hnone
    obtain ⟨hcollect, hnothing⟩ := State.scan_of_not_spells hnone
    refine ⟨fun hground => ?_, hnothing⟩
    rw [hground] at hcollect
    cases hcollect

/-- Registers that an earlier sequence has left full. After an escape, a number that does not
fit 32 bits, an empty field, a field too many and a byte behind the sequence; and a sequence
whose end does not come. -/
theorem sequences_follow_grammar_usedRegisters :
    ∃ p : RawParser, p.introducer = .bracket ∧ p.parameters = #[7, 9] ∧ p.index = 2 ∧
      (scan RawParser.advance p.begin [0x5B, 0x34, 0x32, 0x39, 0x34, 0x39, 0x36, 0x37, 0x32, 0x39,
        0x36, 0x3B, 0x3B, 0x35, 0x48, 0x78]).1.phase = .ground ∧
      (scan RawParser.advance p.begin [0x5B, 0x34, 0x32, 0x39, 0x34, 0x39, 0x36, 0x37, 0x32, 0x39,
        0x36, 0x3B, 0x3B, 0x35, 0x48, 0x78]).2 =
        List.replicate 14 none ++ [some ⟨.bracket, 4294967295, 0, 0x48⟩, none] ∧
      (scan RawParser.advance p.begin [0x5B, 0x33, 0x3B]).1.phase ≠ .ground ∧
      (scan RawParser.advance p.begin [0x5B, 0x33, 0x3B]).2 = List.replicate 3 none := by
  have htext : ∀ byte ∈ ([0x34, 0x32, 0x39, 0x34, 0x39, 0x36, 0x37, 0x32, 0x39, 0x36, 0x3B, 0x3B,
      0x35] : List UInt8), IsParameter byte := by decide +kernel
  have hword : Spells [0x5B, 0x34, 0x32, 0x39, 0x34, 0x39, 0x36, 0x37, 0x32, 0x39, 0x36, 0x3B, 0x3B,
      0x35, 0x48] ⟨.bracket, 4294967295, 0, 0x48⟩ := Spells.bracket htext (by decide)
  have hnone : ∀ word sequence, word <+: [0x5B, 0x33, 0x3B] → ¬ Spells word sequence := by
    rintro word sequence ⟨rest, htext⟩ hspelled
    have hscan := hspelled.scan_append rest
    rw [htext] at hscan
    cases congrArg Prod.fst hscan
  obtain ⟨hspelled, _, hphase, hfound⟩ :=
    sequences_follow_grammar ⟨.ground, .bracket, #[7, 9], 2⟩ [0x5B, 0x34, 0x32, 0x39, 0x34, 0x39,
      0x36, 0x37, 0x32, 0x39, 0x36, 0x3B, 0x3B, 0x35, 0x48, 0x78]
  obtain ⟨_, hopen, hphase', hfound'⟩ :=
    sequences_follow_grammar ⟨.ground, .bracket, #[7, 9], 2⟩ [0x5B, 0x33, 0x3B]
  obtain ⟨_, hground, hlist⟩ := hspelled _ _ [0x78] rfl hword
  obtain ⟨hcollecting, hnothing⟩ := hopen hnone
  exact ⟨_, rfl, rfl, rfl, hphase.mpr hground, hfound.trans hlist, mt hphase'.mp hcollecting,
    hfound'.trans hnothing⟩

end TextConsole.Escape
