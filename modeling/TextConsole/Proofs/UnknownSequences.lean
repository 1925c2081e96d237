import TextConsole.Proofs.Erasure
import TextConsole.Proofs.Machine.Parser
import TextConsole.Proofs.Transcript

/-!
# Sequences that are no command

A sequence may spell nothing that a console can do: one byte that is not known, a bracket with a
final byte that is not known, or an erasure of a part that there is none of (`Escape.Unknown`).
There is no end to them, since a bracket may be followed by any number of parameters, and any
byte that belongs to none, an escape included, is a final byte.

Such a sequence costs nothing but a flush. The escape stores the queue, the sequence then finds
nothing to store, and the console is outside any sequence again, where nothing is left of it. So
the seat is the one that a flush leaves, and whatever is sent next does the same
(`Seat.unknown_sequence_flushes`).
-/

namespace TextConsole

open Escape (IsParameter Spells parameter parameterLimit field decimal scan RawParser)

/-! ## What is no command -/

/-- The final bytes that are known behind a bracket: those of `@ A B C D H J K L M P m`. -/
def commandBytes : List UInt8 :=
  [0x40, 0x41, 0x42, 0x43, 0x44, 0x48, 0x4A, 0x4B, 0x4C, 0x4D, 0x50, 0x6D]

/-- The words that spell no command once an escape has been seen. -/
inductive Escape.Unknown : List UInt8 → Prop
  /-- A byte other than a bracket and `M`. -/
  | bare {final : UInt8} (hbracket : final ≠ 0x5B) (hindex : final ≠ 0x4D) : Unknown [final]
  /-- A bracket, parameters and a final byte that is not known. -/
  | bracket {text : List UInt8} {final : UInt8} (htext : ∀ byte ∈ text, IsParameter byte)
      (hparameter : ¬ IsParameter final) (hfinal : final ∉ commandBytes) :
      Unknown (0x5B :: (text ++ [final]))
  /-- An erasure with a first parameter that selects no part. -/
  | erasure {text : List UInt8} (erasure : Erasure) (htext : ∀ byte ∈ text, IsParameter byte)
      (hlarge : 2 < decimal (field text 0)) : Unknown (0x5B :: (text ++ [erasure.byte]))

namespace Command

/-- A bare sequence is a command with one final byte only. -/
theorem ofSequence?_bare_eq_none_iff {first second : Nat} {final : UInt8} :
    ofSequence? ⟨.bare, first, second, final⟩ = none ↔ final ≠ 0x4D := by
  have hfinal : final = 0x4D ↔ Char.ofNat final.toNat = 'M' := by
    rw [← UInt8.toNat_inj, ← Char.toNat_inj, toNat_char_eq]
    rfl
  rw [ne_eq, hfinal, ofSequence?]
  dsimp only
  split <;> simp [*]

/-- A bracket makes no command with a final byte that is not known, or with a parameter that
selects no part to erase. -/
theorem ofSequence?_bracket_eq_none_iff {first second : Nat} {final : UInt8} :
    ofSequence? ⟨.bracket, first, second, final⟩ = none ↔
      final ∉ commandBytes ∨ (∃ erasure : Erasure, final = erasure.byte) ∧ 2 < first := by
  have hchar : ∀ byte : UInt8, final = byte ↔ Char.ofNat final.toNat = Char.ofNat byte.toNat := by
    intro byte
    rw [← UInt8.toNat_inj, ← Char.toNat_inj, toNat_char_eq, toNat_char_eq]
  have herase : (∃ erasure : Erasure, final = erasure.byte) ↔ final = 0x4A ∨ final = 0x4B := by
    constructor
    · rintro ⟨erasure, rfl⟩
      cases erasure
      · exact Or.inl rfl
      · exact Or.inr rfl
    · rintro (rfl | rfl)
      · exact ⟨.display, rfl⟩
      · exact ⟨.line, rfl⟩
  rw [herase, ofSequence?]
  simp only [commandBytes, List.mem_cons, List.not_mem_nil, or_false, hchar]
  generalize Char.ofNat final.toNat = char
  unfold ofBracket?
  split <;> simp_all [EraseMode.ofValue?_eq_none_iff, Option.map_eq_none_iff]

end Command

/-- **The words that spell no command** are those whose sequence is none. -/
theorem Escape.unknown_iff {word : List UInt8} :
    Unknown word ↔ ∃ sequence, Spells word sequence ∧ Command.ofSequence? sequence = none := by
  have hlimit : ∀ {text : List UInt8}, 2 < parameter text 0 ↔ 2 < decimal (field text 0) := by
    intro text
    unfold parameter parameterLimit
    omega
  constructor
  · intro h
    cases h with
    | bare hbracket hindex =>
        exact ⟨_, .bare hbracket, Command.ofSequence?_bare_eq_none_iff.mpr hindex⟩
    | bracket htext hparameter hfinal =>
        exact ⟨_, .bracket htext hparameter,
          Command.ofSequence?_bracket_eq_none_iff.mpr (Or.inl hfinal)⟩
    | erasure erasure htext hlarge =>
        exact ⟨_, .bracket htext erasure.not_isParameter_byte,
          Command.ofSequence?_bracket_eq_none_iff.mpr (Or.inr ⟨⟨erasure, rfl⟩, hlimit.mpr hlarge⟩)⟩
  · rintro ⟨sequence, hspelled, hnone⟩
    cases hspelled with
    | bare hbracket => exact .bare hbracket (Command.ofSequence?_bare_eq_none_iff.mp hnone)
    | bracket htext hparameter =>
        rcases Command.ofSequence?_bracket_eq_none_iff.mp hnone with
          hfinal | ⟨⟨erasure, rfl⟩, hlarge⟩
        · exact .bracket htext hparameter hfinal
        · exact .erasure erasure htext (hlimit.mp hlarge)

/-! ## The registers of a parser -/

namespace Escape.RawParser

variable {p p' : RawParser} {word : List UInt8} {sequence : Sequence}

/-- After a word the parser is outside any sequence, whatever its registers still hold. -/
theorem phase_of_spells (p : RawParser) (h : Spells word sequence) :
    (scan RawParser.advance p.begin word).1.phase = .ground := by
  have hshows := (p.shows_begin.scan word).1
  have hscan := h.scan_append []
  rw [List.append_nil] at hscan
  rwa [hscan] at hshows

/-- From an escape on, registers that hold different things find the same sequences. -/
theorem scan_begin_congr (p p' : RawParser) (text : List UInt8) :
    ((scan RawParser.advance p.begin text).1.phase = .ground ↔
      (scan RawParser.advance p'.begin text).1.phase = .ground) ∧
    (scan RawParser.advance p.begin text).2 = (scan RawParser.advance p'.begin text).2 := by
  obtain ⟨hshows, hfound⟩ := p.shows_begin.scan text
  obtain ⟨hshows', hfound'⟩ := p'.shows_begin.scan text
  exact ⟨hshows.phase_eq_ground_iff.trans hshows'.phase_eq_ground_iff.symm,
    hfound.trans hfound'.symm⟩

end Escape.RawParser

/-! ## On a seat -/

namespace Seat

open Escape (Unknown)

variable {config : Config} {s t : Seat} {c : Console} {id : Nat} {word : List UInt8}

/-- **An unknown sequence is a flush**, however its bytes are sent. -/
theorem Sound.sent_unknown (h : s.Sound) (hc : s.consoles[id]? = some c)
    (hescape : c.escape = .ground) (hword : Unknown word) (ht : Sent s id (0x1B :: word) t) :
    t = s.flush id := by
  obtain ⟨sequence, hspelled, hnone⟩ := Escape.unknown_iff.mp hword
  exact (h.sent_word hc hescape hspelled ht).trans (run_congr hc (Console.execute_of_none hnone))

/-- **Unknown sequences cost nothing but a flush**, for a console outside any escape sequence.
Unknown are the words that spell a sequence and no command. Sent one byte at a time or as a run,
an escape and such a word leave the seat that a flush leaves, with the console outside any
sequence. What is sent next leads to the same seats, also in one run with the word. In a machine
that never clears its registers, what the word has left in them makes no difference to what any
text finds after the next escape. -/
theorem unknown_sequence_flushes (h : Reached config s) (hc : s.consoles[id]? = some c)
    (hescape : c.escape = .ground) (word : List UInt8) :
    (Unknown word ↔ ∃ sequence, Spells word sequence ∧ Command.ofSequence? sequence = none) ∧
    (Unknown word →
      (∀ t, Sent s id (0x1B :: word) t → t = s.flush id) ∧
      (∃ c', (s.flush id).consoles[id]? = some c' ∧ c'.escape = .ground) ∧
      (∀ bytes, s.sends id (0x1B :: word ++ bytes) = (s.flush id).sends id bytes ∧
        s.sendRun id (0x1B :: word ++ bytes) = (s.flush id).sendRun id bytes) ∧
      ∀ p : RawParser, (scan RawParser.advance p.begin word).1.phase = .ground ∧
        ∀ text,
          ((scan RawParser.advance (scan RawParser.advance p.begin word).1.begin text).1.phase =
              .ground ↔ (scan RawParser.advance p.begin text).1.phase = .ground) ∧
          (scan RawParser.advance (scan RawParser.advance p.begin word).1.begin text).2 =
            (scan RawParser.advance p.begin text).2) := by
  have hsound := h.sound
  refine ⟨Escape.unknown_iff, fun hword => ⟨?_, ?_, ?_, ?_⟩⟩
  · exact fun t ht => hsound.sent_unknown hc hescape hword ht
  · exact ⟨_, consoles_run_self hc, hescape⟩
  · intro bytes
    have hstored : s.sends id (0x1B :: word) = s.flush id :=
      hsound.sent_unknown hc hescape hword (Or.inl rfl)
    have hsends : s.sends id (0x1B :: word ++ bytes) = (s.flush id).sends id bytes := by
      rw [← hstored]
      exact List.foldl_append
    have hflushed : (s.flush id).Sound := hsound.run id stepwise_flush
    exact ⟨hsends, by rw [hsound.sendRun_eq, hsends, hflushed.sendRun_eq]⟩
  · obtain ⟨sequence, hspelled, _⟩ := Escape.unknown_iff.mp hword
    exact fun p => ⟨p.phase_of_spells hspelled, fun text => RawParser.scan_begin_congr _ p text⟩

/-- A character waits, and three sequences are sent that are no command: a bare one, one with two
parameters that ends with another escape, and an erasure of part seven. What follows the second
one is two characters. -/
theorem unknown_sequence_flushes_twoPages :
    ∃ s c, Reached twoPages s ∧ s.consoles[1]? = some c ∧ c.queue = [⟨0x0741⟩] ∧
      s.sends 1 [0x1B, 0x78] = s.flush 1 ∧
      s.sendRun 1 [0x1B, 0x5B, 0x33, 0x3B, 0x1B, 0x5B, 0x41] = (s.flush 1).sendRun 1 [0x5B, 0x41] ∧
      s.sendRun 1 [0x1B, 0x5B, 0x37, 0x4A] = s.flush 1 := by
  have hreached : Reached twoPages _ := ⟨_, [.send 1 0x41], rfl, rfl⟩
  have hunknown := @unknown_sequence_flushes _ _ _ 1 hreached rfl rfl
  refine ⟨_, _, hreached, rfl, rfl, ?_, ?_, ?_⟩
  · exact ((hunknown [0x78]).2 (.bare (by decide) (by decide))).1 _ (Or.inl rfl)
  · have htext : ∀ byte ∈ ([0x33, 0x3B] : List UInt8), IsParameter byte :=
      List.forall_mem_cons.mpr ⟨by decide, List.forall_mem_singleton.mpr (by decide)⟩
    have hword : Unknown ([0x5B, 0x33, 0x3B, 0x1B] : List UInt8) :=
      .bracket htext (by decide) (by decide)
    exact (((hunknown _).2 hword).2.2.1 [0x5B, 0x41]).2
  · have htext : ∀ byte ∈ ([0x37] : List UInt8), IsParameter byte :=
      List.forall_mem_singleton.mpr (by decide)
    have hword : Unknown ([0x5B, 0x37, 0x4A] : List UInt8) :=
      .erasure .display htext (by decide)
    exact ((hunknown _).2 hword).1 _ (Or.inr rfl)

end Seat

end TextConsole
