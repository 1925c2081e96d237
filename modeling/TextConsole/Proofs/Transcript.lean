import TextConsole.Proofs.Bytewise
import TextConsole.Proofs.Legibility
import TextConsole.Proofs.Release

/-!
# What was output, and in which rendition

Follow the bytes that a console is sent, and nothing else. They tell the rendition of its
blanks: it is the first rendition with the two colours that were asked for last
(`Escape.Reading.blank`), so changes that are no changes of colour leave no trace in it.
And they tell what is in the queue: the characters that were output last, each with the pen
as it was then. A cell of the queue comes apart into exactly these two, whatever was done
with the pen in between (`Seat.renditions_leave_characters`).

A console that takes a byte either goes on with an escape sequence, carries one out, takes a
control code, or shows a character. All but a character and a change of rendition leave it
with its pen, its blanks and its queue, or with the queue stored (`Console.Retains`).
-/

namespace TextConsole

/-! ## Colours -/

namespace Rendition

/-- Replaces the colours that are given. -/
def withColors (r : Rendition) (foreground background : Option Color) : Rendition :=
  let inked := foreground.elim r fun color => r.withForeground color.native
  background.elim inked fun color => inked.withBackground color.native

/-- Of colours given one after the other, the last count. -/
theorem withColors_withColors (r : Rendition) (f b f' b' : Option Color) :
    (r.withColors f b).withColors f' b' = r.withColors (f'.or f) (b'.or b) := by
  cases f <;> cases b <;> cases f' <;> cases b' <;>
    simp [withColors, withForeground_withForeground, withBackground_withBackground,
      withForeground_withBackground]

theorem IsProper.withColors {r : Rendition} (h : r.IsProper)
    (foreground background : Option Color) : (r.withColors foreground background).IsProper := by
  have hinked : (r.withColors foreground none).IsProper := by
    cases foreground with
    | none => exact h
    | some color => exact h.withForeground _
  cases background with
  | none => exact hinked
  | some color => exact hinked.withBackground _

theorem contains_eq_false {r flag : Rendition} {i : Nat} (hflag : flag.bit i = true)
    (h : r.bit i = false) : r.contains flag = false := by
  rw [contains, beq_eq_false_iff_ne]
  intro heq
  have hbit : (r &&& flag).bit i = flag.bit i := congrArg (fun bits => bit ⟨bits⟩ i) heq
  rw [bit_and, h, hflag] at hbit
  cases hbit

/-- Colours are below eight, and bits 11 and 15 are the fourth bits of the two. -/
theorem bit_withColors (foreground background : Option Color) {i : Nat} (hi : i = 11 ∨ i = 15) :
    (normal.withColors foreground background).bit i = false := by
  have hnormal : normal.bit i = false := by rcases hi with rfl | rfl <;> rfl
  have hcolor : ∀ color : Color, color.native.toBitVec[3] = false := by
    intro color
    cases color <;> rfl
  rcases hi with rfl | rfl <;> cases foreground <;> cases background <;>
    simp [withColors, bit_withForeground, bit_withBackground, hcolor, hnormal]

/-- Colours neither blink nor are they intense. -/
theorem contains_withColors (foreground background : Option Color) :
    (normal.withColors foreground background).contains intensity = false ∧
      (normal.withColors foreground background).contains blink = false :=
  ⟨contains_eq_false (i := 11) rfl (bit_withColors _ _ (Or.inl rfl)),
    contains_eq_false (i := 15) rfl (bit_withColors _ _ (Or.inr rfl))⟩

end Rendition

theorem Color.ofIndex?_of_lt {n : Nat} (h : 7 < n) : ofIndex? n = none := by
  unfold ofIndex?
  split
  all_goals first
    | omega
    | rfl

namespace Escape

/-- The foreground that a sequence asks for, from `ESC [ 30 m` to `ESC [ 37 m`. -/
def Sequence.foreground? (q : Sequence) : Option Color :=
  if q.introducer = .bracket ∧ q.final = 0x6D ∧ 30 ≤ q.first then Color.ofIndex? (q.first - 30)
  else none

/-- The background that a sequence asks for, from `ESC [ 40 m` to `ESC [ 47 m`. -/
def Sequence.background? (q : Sequence) : Option Color :=
  if q.introducer = .bracket ∧ q.final = 0x6D ∧ 40 ≤ q.first then Color.ofIndex? (q.first - 40)
  else none

end Escape

/-! ## The colours of a command -/

/-- The sequences that change the rendition. -/
theorem Command.ofSequence?_eq_changeRendition {q : Escape.Sequence} {change : RenditionChange} :
    ofSequence? q = some (.changeRendition change) ↔
      q.introducer = .bracket ∧ q.final = 0x6D ∧ change = .ofValue q.first := by
  have hfinal : q.final = 0x6D ↔ Char.ofNat q.final.toNat = 'm' := by
    rw [← UInt8.toNat_inj, ← Char.toNat_inj, toNat_char_eq]
    rfl
  rw [hfinal, ofSequence?]
  generalize Char.ofNat q.final.toNat = final
  cases q.introducer with
  | bare =>
      dsimp only
      split <;> simp
  | bracket =>
      dsimp only
      unfold ofBracket?
      split <;> simp_all [eq_comm]

/-- A value that is no colour leaves the rendition of blanks as it is. -/
theorem RenditionChange.blank_ofValue (blank : Rendition) (value : Nat) :
    ((ofValue value).blank? blank).getD blank =
      blank.withColors (if 30 ≤ value then Color.ofIndex? (value - 30) else none)
        (if 40 ≤ value then Color.ofIndex? (value - 40) else none) := by
  unfold ofValue
  split
  case h_5 =>
    split
    · rename_i h
      rw [if_pos h.1, if_neg (by omega)]
      cases Color.ofIndex? (value - 30) <;> rfl
    · rename_i h
      split
      · have hhigh : Color.ofIndex? (value - 30) = none := Color.ofIndex?_of_lt (by omega)
        rw [if_pos (by omega), hhigh]
        cases Color.ofIndex? (value - 40) <;> rfl
      · rw [if_neg (by omega)]
        rfl
  all_goals rfl

/-! ## Reading along -/

namespace Escape

/-- What can be told of a console from the bytes that it was sent: how far it is in an escape
sequence, and the sequences that it has finished. -/
structure Reading where
  state : State := .ground
  finished : List Sequence := []

namespace Reading

def byte (r : Reading) (byte : UInt8) : Reading :=
  if r.state.isCollecting then
    ⟨(r.state.advance byte).1, r.finished ++ (r.state.advance byte).2.toList⟩
  else if byte = 0x1B then { r with state := .afterEscape }
  else r

def bytes (r : Reading) (bytes : List UInt8) : Reading := bytes.foldl byte r

/-- The first rendition in the colours that were asked for last. -/
def blank (r : Reading) : Rendition :=
  Rendition.normal.withColors (r.finished.filterMap Sequence.foreground?).getLast?
    (r.finished.filterMap Sequence.background?).getLast?

/-- One more sequence, and its colours. -/
theorem blank_finish (state state' : State) (finished : List Sequence) (q : Sequence) :
    blank ⟨state', finished ++ [q]⟩ =
      (blank ⟨state, finished⟩).withColors q.foreground? q.background? := by
  have hlast : ∀ f : Sequence → Option Color,
      ((finished ++ [q]).filterMap f).getLast? = (f q).or (finished.filterMap f).getLast? := by
    intro f
    rw [List.filterMap_append]
    cases hq : f q <;> simp [hq]
  rw [blank, hlast, hlast, blank, Rendition.withColors_withColors]

end Reading

end Escape

/-- Escape sequences begin with one byte only. -/
theorem ControlCode.eq_of_ofByte?_eq_escape {byte : UInt8} (h : ofByte? byte = some .escape) :
    byte = 0x1B := by
  rw [← UInt8.toNat_inj]
  unfold ofByte? at h
  split at h
  all_goals first
    | assumption
    | cases h

namespace Cell

/-- What a cell comes apart into. -/
def parts (cell : Cell) : UInt8 × Rendition := (cell.code, cell.rendition)

theorem parts_ofCode {r : Rendition} (h : r.IsProper) (code : UInt8) :
    (ofCode code r).parts = (code, r) := by
  rw [parts, code_ofCode h, rendition_ofCode h]

end Cell

namespace Console

variable {s : Surface} {c c' c'' : Console}

/-- The character that a byte shows, and the pen that it is drawn with. A character past the
end of the line is lost if lines do not wrap. -/
def character? (s : Surface) (c : Console) (byte : UInt8) : Option (UInt8 × Rendition) :=
  if c.escape.isCollecting = false ∧ ControlCode.ofByte? byte = none ∧
      (c.col < s.columns ∨ s.settings.behavior.lineWrap = true) then some (byte, c.pen)
  else none

/-- The characters that bytes show, each with the pen as it is then. -/
def characters (s : Surface) (c : Console) : List UInt8 → List (UInt8 × Rendition)
  | [] => []
  | byte :: bytes => (c.character? s byte).toList ++ (c.accept s byte).value.characters s bytes

/-! ## What most steps retain -/

/-- Whether a console is as another but for its place, and that its queue may be stored. -/
structure Retains (c c' : Console) : Prop where
  pen : c'.pen = c.pen
  blank : c'.blank = c.blank
  escape : c'.escape = c.escape
  queue : c'.queue = c.queue ∨ c'.queue = []

/-- Whether a computation retains every console. -/
def Retentive (f : Surface → Console → Output Console) : Prop :=
  ∀ (s : Surface) (c : Console), c.Retains (f s c).value

theorem Retains.refl (c : Console) : c.Retains c := ⟨rfl, rfl, rfl, Or.inl rfl⟩

theorem Retains.trans (h : c.Retains c') (h' : c'.Retains c'') : c.Retains c'' where
  pen := h'.pen.trans h.pen
  blank := h'.blank.trans h.blank
  escape := h'.escape.trans h.escape
  queue := by
    rcases h'.queue with hqueue | hqueue
    · rw [hqueue]
      exact h.queue
    · exact Or.inr hqueue

theorem Retains.bind {x : Output Console} {f : Console → Output Console} (hx : c.Retains x.value)
    (hf : x.value.Retains (f x.value).value) : c.Retains (x >>= f).value :=
  hx.trans hf

theorem retains_settle (row col : Int) : c.Retains (c.settle s row col).value :=
  ⟨rfl, rfl, rfl, Or.inr rfl⟩

theorem retains_flush : c.Retains (c.flush s).value := retains_settle _ _

theorem retentive_flush : Retentive fun s c => c.flush s := fun _ _ => retains_flush

theorem retentive_acknowledge : Retentive fun _ c => pure c.acknowledge :=
  fun _ _ => ⟨rfl, rfl, rfl, Or.inl rfl⟩

theorem retains_scroll (d : Direction) : c.Retains (c.scroll s d).value :=
  ⟨rfl, rfl, rfl, Or.inr rfl⟩

theorem retentive_scroll (d : Direction) : Retentive fun s c => c.scroll s d :=
  fun _ _ => retains_scroll d

theorem retains_lineFeed (col : Int) : c.Retains (c.lineFeed s col).value := by
  unfold lineFeed
  split
  · exact retains_settle _ _
  · exact (retains_settle _ _).bind (retains_scroll .up)

theorem retains_wrapLine : c.Retains (c.wrapLine s).value := by
  unfold wrapLine
  split
  · exact retains_settle _ _
  · exact (retains_scroll .up).bind (retains_settle _ _)

theorem retains_makeRoom : c.Retains (c.makeRoom s).value := by
  unfold makeRoom
  split
  · exact .refl _
  · exact retains_flush

theorem retains_goHome : c.Retains (c.goHome s).value := by
  rw [goHome_eq]
  exact ⟨rfl, rfl, rfl, Or.inr rfl⟩

/-- A control code retains the pen and the blanks, unless it begins an escape sequence. -/
theorem retains_control {code : ControlCode} (hcode : code ≠ .escape) :
    c.Retains (c.control s code).value := by
  cases code with
  | null => exact .refl _
  | bell => exact retains_flush
  | backspace =>
      show c.Retains (c.backspace s).value
      unfold backspace
      split
      · exact retains_settle _ _
      · split
        · exact retains_settle _ _
        · exact retains_flush
  | tab =>
      show c.Retains (c.tabulate s).value
      unfold tabulate
      dsimp only
      split
      · exact retains_settle _ _
      · exact retains_lineFeed _
  | lineFeed | verticalTab | formFeed => exact retains_lineFeed _
  | carriageReturn => exact retains_settle _ _
  | escape => exact absurd rfl hcode

/-- A command retains the pen and the blanks, unless it changes the rendition. -/
theorem retains_perform {command : Command}
    (hcommand : ∀ change, command ≠ .changeRendition change) :
    c.Retains (c.perform s command).value := by
  cases command with
  | reverseIndex =>
      rw [perform]
      split
      · exact retains_scroll .down
      · exact retains_settle _ _
  | cursorUp | cursorDown | cursorForward | cursorBackward | cursorPosition =>
      exact retains_settle _ _
  | eraseInDisplay | eraseInLine | insertLines | deleteLines | insertChars | deleteChars =>
      exact .refl _
  | changeRendition change => exact absurd rfl (hcommand change)

/-- A sequence that is no command is dropped after a flush. -/
theorem value_execute_of_none {q : Escape.Sequence} (hq : Command.ofSequence? q = none) :
    (c.execute s q).value = (c.flush s).value := by
  rw [execute, Output.value_bind, hq]
  rfl

theorem value_execute_of_some {q : Escape.Sequence} {command : Command}
    (hq : Command.ofSequence? q = some command) :
    (c.execute s q).value = ((c.flush s).value.perform s command).value := by
  rw [execute, Output.value_bind, hq]

/-! ## Consoles as they can be told -/

/-- Whether a console is as a reading of its bytes tells, with the last of the characters that
were output in its queue. -/
structure Recorded (c : Console) (r : Escape.Reading) (log : List (UInt8 × Rendition)) :
    Prop where
  escape : c.escape = r.state
  pen : c.pen.IsProper
  blank : c.blank = r.blank
  queue : c.queue.map Cell.parts <:+ log

namespace Recorded

variable {r : Escape.Reading} {log : List (UInt8 × Rendition)}

theorem retain (h : c.Recorded r log) (hc : c.Retains c') : c'.Recorded r log where
  escape := hc.escape.trans h.escape
  pen := by
    rw [hc.pen]
    exact h.pen
  blank := hc.blank.trans h.blank
  queue := by
    rcases hc.queue with hqueue | hqueue
    · rw [hqueue]
      exact h.queue
    · rw [hqueue]
      exact List.nil_suffix

theorem blank_proper (h : c.Recorded r log) : c.blank.IsProper := by
  rw [h.blank]
  exact Rendition.isProper_normal.withColors _ _

/-- A character goes to the end of the queue, with the pen. -/
theorem place (h : c.Recorded r log) (code : UInt8) :
    (c.place code).Recorded r (log ++ [(code, c.pen)]) where
  escape := h.escape
  pen := h.pen
  blank := h.blank
  queue := by
    obtain ⟨before, hbefore⟩ := h.queue
    refine ⟨before, ?_⟩
    rw [queue_place, List.map_append, List.map_singleton, Cell.parts_ofCode h.pen,
      ← List.append_assoc, hbefore]

theorem print (h : c.Recorded r log) {byte : UInt8} (hescape : c.escape.isCollecting = false)
    (hcode : ControlCode.ofByte? byte = none) :
    (c.print s byte).value.Recorded r (log ++ (c.character? s byte).toList) := by
  -- The pen that counts is the one before the line wrapped and room was made.
  have hplace : ∀ {k : Console}, c.Retains k →
      (k.enqueue s byte).value.Recorded r (log ++ [(byte, c.pen)]) := by
    intro k hk
    have hroom := hk.trans (retains_makeRoom (s := s))
    have hplaced := (h.retain hroom).place byte
    rwa [hroom.pen] at hplaced
  rw [print_eq, character?]
  split
  · rename_i hcol
    rw [if_pos ⟨hescape, hcode, Or.inl hcol⟩]
    exact hplace (.refl c)
  · rename_i hcol
    split
    · rename_i hwrap
      rw [if_pos ⟨hescape, hcode, Or.inr hwrap⟩]
      exact hplace retains_wrapLine
    · rename_i hwrap
      rw [if_neg (by simp [hcol, hwrap])]
      simpa using h

/-- A console that carries out a finished sequence. -/
theorem execute (h : c.Recorded r log) (q : Escape.Sequence) :
    (c.execute s q).value.Recorded { r with finished := r.finished ++ [q] } log := by
  have hflushed := h.retain (retains_flush (s := s))
  have hblank := Escape.Reading.blank_finish r.state r.state r.finished q
  -- A sequence that does not change the rendition asks for no colours.
  have hplain : ∀ {k : Console}, (c.flush s).value.Retains k →
      (∀ change, Command.ofSequence? q ≠ some (.changeRendition change)) →
        k.Recorded { r with finished := r.finished ++ [q] } log := by
    intro k hk hq
    have hno : ¬ (q.introducer = .bracket ∧ q.final = 0x6D) := fun hq' =>
      hq _ (Command.ofSequence?_eq_changeRendition.mpr ⟨hq'.1, hq'.2, rfl⟩)
    have hforeground : q.foreground? = none := if_neg fun hq' => hno ⟨hq'.1, hq'.2.1⟩
    have hbackground : q.background? = none := if_neg fun hq' => hno ⟨hq'.1, hq'.2.1⟩
    have hk' := hflushed.retain hk
    refine ⟨hk'.escape, hk'.pen, ?_, hk'.queue⟩
    rw [hblank, hforeground, hbackground]
    exact hk'.blank
  cases hq : Command.ofSequence? q with
  | none =>
      rw [value_execute_of_none hq]
      exact hplain (.refl _) (by simp [hq])
  | some command =>
      rw [value_execute_of_some hq]
      by_cases hcommand : ∃ change, command = .changeRendition change
      · obtain ⟨change, rfl⟩ := hcommand
        obtain ⟨hbracket, hfinal, rfl⟩ := Command.ofSequence?_eq_changeRendition.mp hq
        have hpen := RenditionChange.isProper_pen s.kind hflushed.blank_proper hflushed.pen
          (.ofValue q.first)
        show ((c.flush s).value.changeRendition s _).value.Recorded _ _
        rw [value_changeRendition]
        refine ⟨hflushed.escape, hpen, ?_, hflushed.queue⟩
        rw [hblank, Escape.Sequence.foreground?, Escape.Sequence.background?]
        simp only [hbracket, hfinal, true_and]
        rw [RenditionChange.blank_ofValue, hflushed.blank]
      · push Not at hcommand
        refine hplain (retains_perform hcommand) ?_
        intro change hchange
        rw [hq] at hchange
        exact hcommand change (Option.some.inj hchange)

theorem continueEscape (h : c.Recorded r log) (hcollect : c.escape.isCollecting = true)
    (byte : UInt8) : (c.continueEscape s byte).value.Recorded (r.byte byte) log := by
  have hreading : r.byte byte = ⟨(c.escape.advance byte).1,
      r.finished ++ (c.escape.advance byte).2.toList⟩ := by
    rw [Escape.Reading.byte, ← h.escape, if_pos hcollect]
  -- The console goes on with the sequence first, and carries it out in the new state.
  have hnext : ({ c with escape := (c.escape.advance byte).1 } : Console).Recorded
      ⟨(c.escape.advance byte).1, r.finished⟩ log := ⟨rfl, h.pen, h.blank, h.queue⟩
  rw [Console.continueEscape, hreading]
  dsimp only
  cases (c.escape.advance byte).2 with
  | none => simpa using hnext
  | some q => exact hnext.execute q

theorem accept (h : c.Recorded r log) (byte : UInt8) :
    (c.accept s byte).value.Recorded (r.byte byte)
      (log ++ (c.character? s byte).toList) := by
  rw [Console.accept]
  split
  · rename_i hcollect
    rw [character?, if_neg (by simp [hcollect])]
    simpa using h.continueEscape hcollect byte
  · rename_i hescape
    rw [Bool.not_eq_true] at hescape
    have hreading : r.byte byte = if byte = 0x1B then { r with state := .afterEscape } else r := by
      rw [Escape.Reading.byte, ← h.escape, if_neg (by simp [hescape])]
    cases hcode : ControlCode.ofByte? byte with
    | none =>
        have hbyte : byte ≠ 0x1B := by
          rintro rfl
          cases hcode
        rw [hreading, if_neg hbyte]
        exact h.print hescape hcode
    | some code =>
        rw [character?, if_neg (by simp [hcode]), hreading]
        simp only [Option.toList_none, List.append_nil]
        by_cases hbyte : byte = 0x1B
        · subst hbyte
          obtain rfl : ControlCode.escape = code := Option.some.inj hcode
          have hflushed := h.retain (retains_flush (s := s))
          exact ⟨rfl, hflushed.pen, hflushed.blank, hflushed.queue⟩
        · rw [if_neg hbyte]
          refine h.retain (retains_control ?_)
          rintro rfl
          exact hbyte (ControlCode.eq_of_ofByte?_eq_escape hcode)

theorem acceptAll (bytes : List UInt8) :
    ∀ {c : Console} {r : Escape.Reading} {log : List (UInt8 × Rendition)},
      c.Recorded r log → (c.acceptAll s bytes).value.Recorded (r.bytes bytes)
        (log ++ c.characters s bytes) := by
  induction bytes with
  | nil =>
      intro c r log h
      simpa [Console.acceptAll, characters, Escape.Reading.bytes] using h
  | cons byte bytes ih =>
      intro c r log h
      have hrest := ih (h.accept (s := s) byte)
      rw [List.append_assoc] at hrest
      exact hrest

end Recorded

end Console

/-! ## Histories -/

/-- What the kernel's console is sent for a byte: nothing for a null byte, and a carriage return
before each line feed. -/
def messageBytes (byte : UInt8) : List UInt8 :=
  if byte = 0x00 then [] else if byte = 0x0A then [0x0D, 0x0A] else [byte]

/-- The bytes that an operation sends to console `id`. -/
def Operation.bytesTo (id : Nat) : Operation → List UInt8
  | .send j byte => if j = id then [byte] else []
  | .sendRun j bytes => if j = id then bytes else []
  | .echo j byte => if j = id then [byte] else []
  | .message byte => if 0 = id then messageBytes byte else []
  | _ => []

namespace Escape.Reading

/-- Reads along with an operation. A release forgets the colours of the first console, and
leaves an unfinished escape sequence as it is. -/
def operation (id : Nat) (r : Reading) : Operation → Reading
  | .release => if id = 0 then { r with finished := [] } else r
  | op => r.bytes (op.bytesTo id)

/-- What a history tells of console `id`. -/
def ofHistory (id : Nat) (ops : List Operation) : Reading := ops.foldl (operation id) {}

end Escape.Reading

namespace Seat

open Escape (Reading)

variable {s : Seat} {id : Nat} {r : Reading} {log : List (UInt8 × Rendition)}
  {f : Surface → Console → Output Console}

/-- The characters that bytes show on console `id`. -/
def charactersOf (s : Seat) (id : Nat) (bytes : List UInt8) : List (UInt8 × Rendition) :=
  s.consoles[id]?.elim [] fun c => c.characters (s.surface id c) bytes

/-- The characters that a history shows on console `id`, each with the pen as it is then. -/
def output (s : Seat) (id : Nat) : List Operation → List (UInt8 × Rendition)
  | [] => []
  | op :: ops => s.charactersOf id (op.bytesTo id) ++ (s.apply op).output id ops

theorem charactersOf_nil (s : Seat) (id : Nat) : s.charactersOf id [] = [] := by
  unfold charactersOf
  cases s.consoles[id]? <;> rfl

/-- A message is a run of the kernel's console. -/
theorem Sound.message_eq (hs : s.Sound) (byte : UInt8) :
    ∃ f : Surface → Console → Output Console, Console.Retentive f ∧
      s.message byte =
        s.run 0 fun surface c => c.acceptAll surface (messageBytes byte) >>= f surface := by
  unfold message messageBytes
  split
  · refine ⟨fun surface c => c.flush surface, Console.retentive_flush, ?_⟩
    simp only [Console.acceptAll, pure_bind]
    rfl
  · refine ⟨fun _ c => pure c, fun _ c => .refl c, ?_⟩
    split
    · rw [send, send, hs.run_run (stepwise_accept 0x0D)]
      simp only [Console.acceptAll, bind_pure]
    · simp only [Console.acceptAll, bind_pure]
      rfl

/-- Whether console `id`, if there is one, is as its reading tells. -/
def Recorded (s : Seat) (id : Nat) (r : Reading) (log : List (UInt8 × Rendition)) : Prop :=
  ∀ c, s.consoles[id]? = some c → c.Recorded r log

namespace Recorded

/-- Some console takes bytes, and then runs something which retains it. -/
theorem run (h : s.Recorded id r log) (j : Nat) (bytes : List UInt8)
    (hf : Console.Retentive f) :
    (s.run j fun surface c => c.acceptAll surface bytes >>= f surface).Recorded id
      (r.bytes (if j = id then bytes else []))
      (log ++ s.charactersOf id (if j = id then bytes else [])) := by
  intro c' hc'
  by_cases hj : j = id
  · subst hj
    rw [if_pos rfl]
    cases hc : s.consoles[j]? with
    | none =>
        rw [run_of_none hc, hc] at hc'
        cases hc'
    | some c =>
        rw [consoles_run_self hc] at hc'
        obtain rfl := Option.some.inj hc'
        rw [charactersOf, hc]
        exact ((h c hc).acceptAll bytes).retain (hf _ _)
  · rw [consoles_run_of_ne hj] at hc'
    rw [if_neg hj, charactersOf_nil, List.append_nil]
    exact h c' hc'

/-- Some console runs something which retains it. -/
theorem retain (h : s.Recorded id r log) (j : Nat)
    (hf : Console.Retentive f) : (s.run j f).Recorded id r log := by
  have hrun := h.run j [] hf
  simpa [Console.acceptAll, charactersOf_nil, Reading.bytes] using hrun

theorem focus (h : s.Recorded id r log) (j : Nat) : (s.focus j).Recorded id r log := by
  intro c hc
  rw [consoles_focus] at hc
  exact h c hc

theorem homeAll (h : s.Recorded id r log) : s.homeAll.Recorded id r log :=
  focus (runAll_induction (P := fun s => s.Recorded id r log)
    (fun j h => h.retain j fun _ _ => Console.retains_goHome) h) _

theorem setSoftwareScroll (h : s.Recorded id r log) (on : Bool) :
    (s.setSoftwareScroll on).Recorded id r log := h

/-- The first console gets its first renditions back. -/
theorem release (h : s.Recorded id r log) :
    s.release.Recorded id (r.operation id .release) log := by
  have hhome : ((s.homeAll.setSoftwareScroll true).focus 0).Recorded id r log :=
    (h.homeAll.setSoftwareScroll true).focus 0
  intro c hc
  rw [release_eq, consoles_resetFirst] at hc
  rw [Reading.operation]
  split at hc
  · rename_i hid
    rw [if_pos hid.symm]
    obtain ⟨before, hbefore, rfl⟩ := Option.map_eq_some_iff.mp hc
    have hrecorded := hhome before hbefore
    exact ⟨hrecorded.escape, Rendition.isProper_normal, rfl, hrecorded.queue⟩
  · rename_i hid
    rw [if_neg (Ne.symm hid)]
    exact hhome c hc

/-- **Every operation is recorded.** -/
theorem apply (h : s.Recorded id r log) (hs : s.Sound) (op : Operation) :
    (s.apply op).Recorded id (r.operation id op)
      (log ++ s.charactersOf id (op.bytesTo id)) := by
  have hsilent : ∀ {s' : Seat}, s'.Recorded id r log → s'.Recorded id (r.bytes [])
      (log ++ s.charactersOf id []) := by
    intro s' h'
    rw [charactersOf_nil, List.append_nil]
    exact h'
  cases op with
  | send j byte =>
      have hrun := h.run (f := fun _ c => pure c) j [byte] fun _ c => .refl c
      simp only [Console.acceptAll, bind_pure] at hrun
      exact hrun
  | sendRun j bytes =>
      have hrun := h.run j bytes Console.retentive_flush
      simp only [← Console.acceptRun_eq] at hrun
      exact hrun
  | echo j byte =>
      have hrun := h.run j [byte] Console.retentive_flush
      simp only [Console.acceptAll, bind_pure] at hrun
      exact hrun
  | message byte =>
      obtain ⟨f, hf, hmessage⟩ := hs.message_eq byte
      show (s.message byte).Recorded _ _ _
      rw [hmessage]
      exact h.run 0 (messageBytes byte) hf
  | flush j => exact hsilent (h.retain j Console.retentive_flush)
  | acknowledge j => exact hsilent (h.retain j Console.retentive_acknowledge)
  | scroll j direction =>
      have hrun := h.retain j (Console.retentive_scroll direction)
      exact hsilent hrun
  | focus j => exact hsilent (h.focus j)
  | homeAll => exact hsilent h.homeAll
  | switchScrolling =>
      have hset : (s.homeAll.setSoftwareScroll _).Recorded id r log :=
        h.homeAll.setSoftwareScroll (!s.settings.behavior.softwareScroll)
      exact hsilent hset
  | switchBell =>
      have hswitched : s.switchBell.Recorded id r log := h
      exact hsilent hswitched
  | release =>
      show s.release.Recorded _ _ (log ++ s.charactersOf id [])
      rw [charactersOf_nil, List.append_nil]
      exact h.release
  | installFont font =>
      obtain ⟨fonts, happly⟩ := apply_installFont (s := s) font
      rw [happly]
      exact hsilent h

theorem applyAll (ops : List Operation) :
    ∀ {s : Seat} {r : Reading} {log : List (UInt8 × Rendition)}, s.Sound → s.Recorded id r log →
      (s.applyAll ops).Recorded id (ops.foldl (Reading.operation id) r)
        (log ++ s.output id ops) := by
  induction ops with
  | nil =>
      intro s r log _ h
      simpa [output] using h
  | cons op ops ih =>
      -- What the first operation shows goes to the end of the log before the rest is read.
      intro s r log hs h
      have hrest := ih (Moves.sound (moves_apply op) hs) (h.apply hs op)
      rw [List.append_assoc] at hrest
      exact hrest

end Recorded

/-- **Renditions leave characters alone**, and the rendition of blanks has a closed form. After
any history the pen and the blanks of a console have nothing where a character code is. Its
blanks are drawn in the first rendition, with the foreground and the background that were
asked for last on this console (and on the first one, since it was last released); so they are
never intense and never blink. And the queue comes apart into the characters that were output
last, with the pen that each was output with. -/
theorem renditions_leave_characters {config : Config} {seat : Seat} {c : Console}
    (hseat : ofConfig config = .ok seat) (ops : List Operation)
    (hc : (seat.applyAll ops).consoles[id]? = some c) :
    c.pen.IsProper ∧ c.blank.IsProper ∧
      c.blank = Rendition.normal.withColors
        ((Reading.ofHistory id ops).finished.filterMap Escape.Sequence.foreground?).getLast?
        ((Reading.ofHistory id ops).finished.filterMap Escape.Sequence.background?).getLast? ∧
      c.blank.contains Rendition.intensity = false ∧ c.blank.contains Rendition.blink = false ∧
      c.queue.map (fun cell => (cell.code, cell.rendition)) <:+ seat.output id ops := by
  obtain ⟨hfresh, hsound, _⟩ := fresh_ofConfig hseat
  have hnew : seat.Recorded id {} [] := by
    intro c hc
    rw [hfresh.console hc]
    exact ⟨rfl, Rendition.isProper_normal, rfl, List.nil_suffix⟩
  have h := Recorded.applyAll ops hsound hnew c hc
  have hblank := h.blank
  obtain ⟨hintensity, hblink⟩ := Rendition.contains_withColors
    ((Reading.ofHistory id ops).finished.filterMap Escape.Sequence.foreground?).getLast?
    ((Reading.ofHistory id ops).finished.filterMap Escape.Sequence.background?).getLast?
  refine ⟨h.pen, h.blank_proper, hblank, ?_, ?_, h.queue⟩
  · rw [hblank]
    exact hintensity
  · rw [hblank]
    exact hblink

/-- A display in colour and one without, each with a screen of three columns and two rows. -/
def colorAndMono : Config where
  screen := ⟨3, 2⟩
  behavior := { maxConsoles := 2 }
  displays := [{ capacity := 8 }, { kind := .mono, capacity := 8 }]

/-- Red on blue, then reverse and intense without colours, with a letter output before and a
letter after the second. -/
def letters : List Operation :=
  [.sendRun 1 [0x1B, 0x5B, 0x33, 0x31, 0x6D, 0x1B, 0x5B, 0x34, 0x34, 0x6D],
    .sendRun 1 [0x1B, 0x5B, 0x37, 0x6D, 0x41, 0x1B, 0x5B, 0x31, 0x6D], .send 1 0x42]

theorem renditions_leave_characters_colorAndMono :
    ∃ seat c, ofConfig colorAndMono = .ok seat ∧ (seat.applyAll letters).consoles[1]? = some c ∧
      (seat.displayOf c).kind = .mono ∧
      c.blank = Rendition.normal.withColors (some .red) (some .blue) ∧
      c.queue.length = 1 ∧
      c.queue.map (fun cell => (cell.code, cell.rendition)) <:+
        [(0x41, ⟨0x0700⟩), (0x42, ⟨0x0F00⟩)] := by
  obtain ⟨_, _, hblank, _, _, hqueue⟩ :=
    @renditions_leave_characters 1 colorAndMono _ _ rfl letters rfl
  refine ⟨_, _, rfl, rfl, rfl, hblank, rfl, ?_⟩
  convert hqueue using 1
  decide +kernel

end Seat

end TextConsole
