import Mathlib.Tactic.IntervalCases
import TextConsole.Proofs.Bytewise
import TextConsole.Proofs.Grammar
import TextConsole.Proofs.Scrolling

/-!
# Commands as they are sent

A sequence is sent as an escape and a word that spells it. A command with parameters is sent
as an escape, a bracket, the digits of its parameters and a final byte (`Escape.bracketed`).
There may be any number of digits. A parameter is the number they write, up to a limit, and the
limit is far beyond every screen.

A console outside any escape sequence takes these bytes as one computation: it stores its queue
and performs the command, if the sequence is one (`Console.acceptAll_word`). On a seat it makes
no difference whether the bytes are sent one at a time or as a run (`Seat.Sound.sent_word`). A
command that rearranges cells then patches the screen that a flush would show, and touches
nothing else (`Seat.Edited`).
-/

namespace TextConsole

/-- Patches are not entered in the journal. -/
theorem Journal.recordAll_patches (display capacity origin : Nat) (j : Journal)
    (patches : List Patch) :
    j.recordAll display capacity (patches.map (Patch.effect origin)).toArray = j := by
  induction patches with
  | nil => rfl
  | cons p patches ih =>
      have hcons : ((p :: patches).map (Patch.effect origin)).toArray =
          #[p.effect origin] ++ (patches.map (Patch.effect origin)).toArray := by simp
      have hone : j.recordAll display capacity #[p.effect origin] = j := by cases p <;> rfl
      rw [hcons, recordAll_append, hone, ih]

/-- A computation only goes on from the value it is given. -/
theorem Output.bind_congr {α β : Type} {x : Output α} {f g : α → Output β}
    (h : f x.value = g x.value) : x >>= f = x >>= g := by
  ext1
  · rw [value_bind, value_bind, h]
  · rw [effects_bind, effects_bind, h]

/-! ## Words of commands -/

namespace Escape

/-- A sequence with one parameter, as it is sent. -/
def bracketed (digits : List UInt8) (final : UInt8) : List UInt8 :=
  0x1B :: 0x5B :: (digits ++ [final])

/-- The sequence that is found when it has been sent. -/
def Sequence.bracketed (digits : List UInt8) (final : UInt8) : Sequence :=
  ⟨.bracket, min (decimal digits) parameterLimit, 0, final⟩

theorem not_mem_of_isDigit {digits : List UInt8} (h : ∀ byte ∈ digits, IsDigit byte) :
    0x3B ∉ digits := fun hmem => absurd (h _ hmem) (by decide)

/-- Fields that are sent between separators are the fields that are found. -/
theorem field_intercalate {fields : List (List UInt8)}
    (h : ∀ digits ∈ fields, ∀ byte ∈ digits, IsDigit byte) (i : Nat) :
    field ([0x3B].intercalate fields) i = fields.getD i [] := by
  by_cases hempty : fields = []
  · subst hempty
    exact field_nil i
  · rw [field, List.splitOn_intercalate _ (fun digits hmem => not_mem_of_isDigit (h digits hmem))
      hempty]

theorem isParameter_intercalate {fields : List (List UInt8)}
    (h : ∀ digits ∈ fields, ∀ byte ∈ digits, IsDigit byte) :
    ∀ byte ∈ [0x3B].intercalate fields, IsParameter byte := by
  induction fields with
  | nil => exact List.forall_mem_nil _
  | cons digits fields ih =>
      obtain ⟨hdigits, hfields⟩ := List.forall_mem_cons.mp h
      have hfirst : ∀ byte ∈ digits, IsParameter byte := fun byte hmem => Or.inl (hdigits byte hmem)
      cases fields with
      | nil => simpa using hfirst
      | cons next fields =>
          rw [List.intercalate_cons_cons]
          simp only [List.forall_mem_append, List.forall_mem_singleton]
          exact ⟨⟨hfirst, Or.inr rfl⟩, ih hfields⟩

/-- Digits alone are the first parameter. -/
theorem spells_digits {digits : List UInt8} {final : UInt8}
    (hdigits : ∀ byte ∈ digits, IsDigit byte) (hfinal : ¬ IsParameter final) :
    Spells (0x5B :: (digits ++ [final])) (.bracketed digits final) := by
  have hfields : ∀ i, field digits i = [digits].getD i [] := by
    intro i
    rw [field, List.splitOn_eq_singleton (not_mem_of_isDigit hdigits)]
  have hword := Spells.bracket (fun byte hmem => Or.inl (hdigits byte hmem)) hfinal
  simp only [parameter, hfields] at hword
  exact hword

end Escape

open Escape (IsDigit IsParameter Spells decimal bracketed parameterLimit)

/-- The byte that ends a command belongs to no parameter. -/
theorem Command.final_of_ofSequence? {first second : Nat} {final : UInt8} {command : Command}
    (h : ofSequence? ⟨.bracket, first, second, final⟩ = some command) : ¬ IsParameter final := by
  have hfinal : ofBracket? first second (Char.ofNat final.toNat) = some command := h
  rintro (⟨hlow, hhigh⟩ | rfl)
  · have hlow : 0x30 ≤ final.toNat := hlow
    have hhigh : final.toNat ≤ 0x39 := hhigh
    generalize final.toNat = code at hfinal hlow hhigh
    interval_cases code <;> cases hfinal
  · cases hfinal

/-! ## Sequences -/

namespace Console

variable {s : Surface} {c : Console} {d : Display} {word : List UInt8}
  {sequence : Escape.Sequence} {command : Command}

theorem WellPlaced.flushed (hc : c.WellPlaced s) (hs : s.Holds c.region) :
    (c.flushed s).WellPlaced s := wellPlaced_settle hs hc.origin_within _ _

theorem Drawn.flushed (hd : c.Drawn s d) :
    (c.flushed s).Drawn s (d.performAll (c.flush s).effects) := (Step.settle _ _).drawn hd

/-- Stores the queue and performs a command. -/
def obey (s : Surface) (c : Console) (command : Command) : Output Console := do
  let c ← c.flush s
  c.perform s command

theorem execute_of_some (h : Command.ofSequence? sequence = some command) :
    c.execute s sequence = c.obey s command := by
  simp only [execute, obey, h]

/-- A sequence that spells no command only stores the queue. -/
theorem execute_of_none (h : Command.ofSequence? sequence = none) :
    c.execute s sequence = c.flush s := by
  simp only [execute, h]
  exact bind_pure _

theorem perform_steps (hqueue : c.queue = []) : Steps s c (c.perform s command) := by
  cases command with
  | reverseIndex =>
      rw [perform]
      split
      · exact .one (.scroll .down)
      · exact .one (.settle ..)
  | cursorUp | cursorDown | cursorForward | cursorBackward | cursorPosition =>
      exact .one (.settle ..)
  | eraseInDisplay | eraseInLine | insertLines | deleteLines | insertChars | deleteChars =>
      exact .one (.edit hqueue trivial)
  | changeRendition change => exact .one (.recolor change hqueue)

theorem obey_steps : Steps s c (c.obey s command) :=
  flush_steps.bind (perform_steps (c := c.flushed s) rfl)

theorem execute_steps : Steps s c (c.execute s sequence) := by
  cases hcommand : Command.ofSequence? sequence with
  | none =>
      rw [execute_of_none hcommand]
      exact flush_steps
  | some command =>
      rw [execute_of_some hcommand]
      exact obey_steps

/-- No command leaves anything in the queue. -/
theorem queue_perform (hqueue : c.queue = []) : (c.perform s command).value.queue = [] := by
  cases command with
  | reverseIndex =>
      rw [perform]
      split
      · rfl
      · rfl
  | cursorUp | cursorDown | cursorForward | cursorBackward | cursorPosition => rfl
  | eraseInDisplay | eraseInLine | insertLines | deleteLines | insertChars | deleteChars =>
      exact hqueue
  | changeRendition change =>
      rw [perform, value_changeRendition]
      exact hqueue

theorem queue_execute : (c.execute s sequence).value.queue = [] := by
  cases hcommand : Command.ofSequence? sequence with
  | none =>
      rw [execute_of_none hcommand]
      rfl
  | some command =>
      rw [execute_of_some hcommand]
      exact queue_perform (c := c.flushed s) rfl

theorem accept_of_isCollecting (h : c.escape.isCollecting = true) (byte : UInt8) :
    c.accept s byte = c.continueEscape s byte := if_pos h

/-- A control code outside any sequence. -/
theorem accept_eq_control {byte : UInt8} (code : ControlCode) (hescape : c.escape = .ground)
    (hbyte : ControlCode.ofByte? byte = some code) : c.accept s byte = c.control s code := by
  rw [accept, hescape, hbyte]
  rfl

/-- As long as the end of a sequence has not come, only the state of its collecting changes. -/
theorem acceptAll_of_isCollecting {bytes : List UInt8} {state : Escape.State}
    (h : (Escape.scan Escape.State.advance c.escape bytes).1 = state)
    (hstate : state.isCollecting = true) :
    c.acceptAll s bytes = pure { c with escape := state } := by
  subst h
  induction bytes generalizing c with
  | nil => rfl
  | cons byte bytes ih =>
      have hcollect := Escape.State.isCollecting_of_scan (byte :: bytes) hstate
      have hnext : (c.escape.advance byte).1.isCollecting = true :=
        Escape.State.isCollecting_of_scan bytes hstate
      have hnone := Escape.State.snd_advance_of_isCollecting hnext
      have hbyte : c.accept s byte = pure { c with escape := (c.escape.advance byte).1 } := by
        rw [accept_of_isCollecting hcollect, continueEscape]
        simp only [hnone]
      rw [acceptAll, hbyte, pure_bind, ih hstate]
      rfl

/-- What follows the escape of a sequence is performed when the last byte of it arrives. -/
theorem acceptAll_afterEscape (hescape : c.escape = .ground) (hword : Spells word sequence) :
    ({ c with escape := .afterEscape } : Console).acceptAll s word = c.execute s sequence := by
  obtain ⟨start, final, state, rfl, hstart, hstate, hfinal⟩ := hword.exists_last
  have hcollect := acceptAll_of_isCollecting (s := s)
    (c := { c with escape := .afterEscape }) (congrArg Prod.fst hstart) hstate
  have hsame : ({ c with escape := .ground } : Console) = c := by rw [← hescape]
  rw [acceptAll_concat, hcollect, pure_bind, accept_of_isCollecting hstate, continueEscape]
  simp only [hfinal, hsame]

/-- **A sequence is one command.** The queue is stored when the escape arrives, so nothing is
left to store when the command is performed. -/
theorem acceptAll_word (hs : s.Holds c.region) (hc : c.WellPlaced s)
    (hescape : c.escape = .ground) (hword : Spells word sequence) :
    c.acceptAll s (0x1B :: word) = c.execute s sequence := by
  have hplaced := hc.flushed hs
  have hstart : c.accept s 0x1B =
      c.flush s >>= fun c => pure { c with escape := .afterEscape } :=
    accept_eq_control .escape hescape rfl
  rw [acceptAll, hstart, bind_assoc, execute]
  apply Output.bind_congr
  rw [pure_bind]
  refine (acceptAll_afterEscape (c := c.flushed s) hescape hword).trans ?_
  rw [execute, flush_of_queue_eq_nil hplaced rfl, pure_bind]

/-- The flush at the end of a run finds nothing to store. -/
theorem acceptRun_word (hs : s.Holds c.region) (hc : c.WellPlaced s)
    (hescape : c.escape = .ground) (hword : Spells word sequence) :
    c.acceptRun s (0x1B :: word) = c.execute s sequence := by
  have hsteps : Steps s c (c.execute s sequence) := execute_steps
  have hafter := (hsteps.wellPlaced hs hc).2
  rw [acceptRun_eq, acceptAll_word hs hc hescape hword]
  calc (c.execute s sequence >>= fun c => c.flush s)
      = c.execute s sequence >>= pure :=
        Output.bind_congr (flush_of_queue_eq_nil hafter queue_execute)
    _ = c.execute s sequence := bind_pure _

/-! ## Edits -/

/-- **An edit stores the queue and patches the window**, and does nothing to the console
itself. -/
theorem obey_edit (hd : c.Drawn s d) (hedit : command.IsEdit) :
    c.obey s command =
      ⟨c.flushed s, (c.flush s).effects ++
        ((command.patches s c.row c.col).map (Patch.effect c.origin)).toArray⟩ := by
  have hrow : (c.flushed s).row = c.row := confineRow_of_lt hd.placed.row_lt
  have hcol : (c.flushed s).col = c.col := confineColumn_of_le hd.placed.col_le
  have hperform := perform_edit hedit (hd.flushed.placed.cursorAddr_of_queue_eq_nil rfl)
  rw [hrow, hcol] at hperform
  ext1
  · rw [obey, Output.value_bind, hperform]
  · rw [obey, Output.effects_bind, hperform]
    rfl

/-- **What an edit shows is the picture, patched.** -/
theorem shown_obey_edit (hd : c.Drawn s d) (hedit : command.IsEdit) {k : Nat} (hk : k < s.size) :
    (d.performAll (c.obey s command).effects).shown c.origin k =
      Patch.applyAll (Cell.blank c.blank)
        ((c.waiting s).apply (Cell.blank c.blank) (d.shown c.origin))
        (command.patches s c.row c.col) k := by
  have hd' := hd.flushed
  have hinside := command.inside_of_mem_patches (s := s) hd.placed.row_lt hd.placed.col_le
  have hwindow := hd'.placed.origin_within.holdsWindow hd'.holds hd'.describes
  rw [obey_edit hd hedit, Display.performAll_append]
  refine (cell_performAll_effects hwindow hinside k hk).trans ?_
  rw [hd'.blankCell]
  refine Patch.applyAll_congr hinside (fun j hj => ?_) k hk
  rw [← hd.blankCell]
  exact shown_settle hd.holds hd.placed hd.describes _ _ hj

/-- **An edit changes no word outside the window.** -/
theorem cell_obey_edit (hd : c.Drawn s d) (hedit : command.IsEdit) {a : Nat}
    (hout : ∀ i < s.size, (c.origin + i) % d.memory.capacity ≠ a % d.memory.capacity) :
    (d.performAll (c.obey s command).effects).memory.cell a =
      d.memory.cell a := by
  have hd' := hd.flushed
  have hcap : (d.performAll (c.flush s).effects).memory.capacity = d.memory.capacity :=
    Display.capacity_performAll d _
  have hinside := command.inside_of_mem_patches (s := s) hd.placed.row_lt hd.placed.col_le
  have hwindow := hd'.placed.origin_within.holdsWindow hd'.holds hd'.describes
  have hstored : (d.performAll (c.flush s).effects).memory.cell a = d.memory.cell a := by
    rw [flush, performAll_settle, ← hd.placed.waiting_effect]
    exact cell_perform_effect_outside (hd.placed.origin_within.holdsWindow hd.holds hd.describes)
      hd.placed.waiting_inside hout
  rw [obey_edit hd hedit, Display.performAll_append]
  exact (cell_performAll_effects_outside hwindow hinside (by rw [hcap]; exact hout)).trans hstored

end Console

/-! ## Sequences on a seat -/

namespace Seat

variable {s t : Seat} {c : Console} {id : Nat} {word digits : List UInt8} {final : UInt8}
  {sequence : Escape.Sequence} {command : Command}

theorem run_congr {f g : Surface → Console → Output Console} (hc : s.consoles[id]? = some c)
    (h : f (s.surface id c) c = g (s.surface id c) c) : s.run id f = s.run id g := by
  rw [run_of_some hc, run_of_some hc, h]

/-- Bytes sent one at a time are one run of the console, unless there are none. -/
theorem Sound.sends_eq_run (h : s.Sound) {bytes : List UInt8} (hne : bytes ≠ []) :
    s.sends id bytes = s.run id fun surface c => c.acceptAll surface bytes := by
  obtain ⟨first, last, rfl⟩ := (List.eq_nil_or_concat' bytes).resolve_left hne
  simp only [Console.acceptAll_concat]
  rw [← h.run_sends, sends, List.foldl_append]
  rfl

/-- A run is its bytes and a flush. -/
theorem Sound.sendRun_eq (h : s.Sound) (id : Nat) (bytes : List UInt8) :
    s.sendRun id bytes = (s.sends id bytes).flush id := by
  rw [flush, h.run_sends]
  simp only [sendRun, Console.acceptRun_eq]

/-- Whether bytes have been sent to a console, one at a time or as a run. -/
def Sent (s : Seat) (id : Nat) (bytes : List UInt8) (t : Seat) : Prop :=
  t = s.sends id bytes ∨ t = s.sendRun id bytes

/-- **A sequence makes the console execute it**, whether its bytes are sent one at a time or as
a run. -/
theorem Sound.sent_word (h : s.Sound) (hc : s.consoles[id]? = some c)
    (hescape : c.escape = .ground) (hword : Spells word sequence)
    (ht : Sent s id (0x1B :: word) t) :
    t = s.run id fun surface c => c.execute surface sequence := by
  rcases ht with rfl | rfl
  · rw [h.sends_eq_run (List.cons_ne_nil _ _)]
    exact run_congr hc (Console.acceptAll_word (h.holds hc) (h.placed hc) hescape hword)
  · exact run_congr hc (Console.acceptRun_word (h.holds hc) (h.placed hc) hescape hword)

/-- A sequence spells a command that is sent with digits as its one parameter. -/
theorem Sound.sent_command (h : s.Sound) (hc : s.consoles[id]? = some c)
    (hescape : c.escape = .ground) (hdigits : ∀ byte ∈ digits, IsDigit byte)
    (hcommand : Command.ofSequence? (.bracketed digits final) = some command)
    (ht : Sent s id (bracketed digits final) t) :
    t = s.run id fun surface c => c.obey surface command := by
  have hword := Escape.spells_digits hdigits (Command.final_of_ofSequence? hcommand)
  exact (h.sent_word hc hescape hword ht).trans (run_congr hc (Console.execute_of_some hcommand))

/-! ## Edits of a seat -/

theorem stepwise_obey : Console.Stepwise fun surface c => c.obey surface command :=
  fun _ _ => Console.obey_steps

/-- Patches the window of display `k` that starts at `origin`. -/
def patch (s : Seat) (k origin : Nat) (patches : List Patch) : Seat :=
  { s with
    displays := s.displays.modify k fun d =>
      d.performAll (patches.map (Patch.effect origin)).toArray }

theorem patch_patch (k origin : Nat) (patches more : List Patch) :
    (s.patch k origin patches).patch k origin more = s.patch k origin (patches ++ more) := by
  refine eq_of_parts rfl ?_ rfl rfl rfl
  apply Array.ext_getElem?
  intro j
  simp only [patch, Array.getElem?_modify]
  split
  · rw [Option.map_map]
    congr 1
    funext d
    simp [Display.performAll]
  · rfl

theorem patch_nil (k origin : Nat) : s.patch k origin [] = s := by
  refine eq_of_parts rfl ?_ rfl rfl rfl
  apply Array.ext_getElem?
  intro j
  simp only [patch, Array.getElem?_modify, List.map_nil, Display.performAll_empty]
  split
  · exact Option.map_id'
  · rfl

/-- Only what patches do to the one display counts. -/
theorem patch_congr {k : Nat} (origin : Nat) {patches patches' : List Patch}
    (h : ∀ d, s.displays[k]? = some d →
      d.performAll (patches.map (Patch.effect origin)).toArray =
        d.performAll (patches'.map (Patch.effect origin)).toArray) :
    s.patch k origin patches = s.patch k origin patches' := by
  refine eq_of_parts rfl ?_ rfl rfl rfl
  apply Array.ext_getElem?
  intro j
  simp only [patch, Array.getElem?_modify]
  split
  · subst j
    exact Option.map_congr h
  · rfl

/-- What an edit leaves of a seat: the console without its queue, its screen patched, and all
words outside its window as they were. -/
structure Edited (s : Seat) (id : Nat) (c : Console) (patches : List Patch) (t : Seat) : Prop where
  console : t.consoles[id]? = some (c.flushed (s.surface id c))
  rows : t.rows? id = some ((s.surface id c).rowsOf
    (Patch.applyAll (Cell.blank c.blank) (s.picture id c) patches))
  outside : ∀ k a, a < (s.displays.getD k default).capacity →
    (c.region.display = k → ∀ i < (s.surface id c).size,
      (c.origin + i) % (s.displays.getD k default).capacity ≠ a) →
    (t.displays.getD k default).memory.cell a = (s.displays.getD k default).memory.cell a

theorem Sound.edited_run (h : s.Sound) (hc : s.consoles[id]? = some c) (hedit : command.IsEdit) :
    Edited s id c (command.patches (s.surface id c) c.row c.col)
      (s.run id fun surface c => c.obey surface command) := by
  have hd := h.drawn hc
  have hvalue : (c.obey (s.surface id c) command).value = c.flushed (s.surface id c) := by
    rw [Console.obey_edit hd hedit]
  refine ⟨?_, ?_, ?_⟩
  · rw [consoles_run_self hc, hvalue]
  · rw [h.rows?_run hc stepwise_obey, Option.some.injEq, Surface.rowsOf_eq_iff, hvalue]
    intro k hk
    exact Console.shown_obey_edit hd hedit hk
  · intro k a ha hout
    by_cases hdisplay : c.region.display = k
    · subst hdisplay
      have hcell := Console.cell_obey_edit hd hedit (a := a) (fun i hi => by
        have hne := hout rfl i hi
        rw [← Nat.mod_eq_of_lt ha] at hne
        exact hne)
      rw [← displayOf_run hc (f := fun surface c => c.obey surface command) c rfl
        (h.display_lt hc)] at hcell
      exact hcell
    · rw [Array.getD_eq_getD_getElem?, Array.getD_eq_getD_getElem?, displays_run hc,
        if_neg hdisplay]

/-- **A sequence that spells an edit** leaves the screen patched, however it is sent. -/
theorem Sound.edited (h : s.Sound) (hc : s.consoles[id]? = some c) (hescape : c.escape = .ground)
    (hdigits : ∀ byte ∈ digits, IsDigit byte)
    (hcommand : Command.ofSequence? (.bracketed digits final) = some command)
    (hedit : command.IsEdit)
    (ht : Sent s id (bracketed digits final) t) :
    Edited s id c (command.patches (s.surface id c) c.row c.col) t := by
  rw [h.sent_command hc hescape hdigits hcommand ht]
  exact h.edited_run hc hedit

/-- **An edit is a flush and patches.** All that it leaves of a seat is as a flush leaves it,
register writes and bells included, and one window is patched. -/
theorem Sound.run_obey_edit (h : s.Sound) (hc : s.consoles[id]? = some c) (hedit : command.IsEdit) :
    (s.run id fun surface c => c.obey surface command) =
      (s.flush id).patch c.region.display c.origin
        (command.patches (s.surface id c) c.row c.col) := by
  have hobey := Console.obey_edit (h.drawn hc) hedit
  rw [flush, run_of_some hc, run_of_some hc, hobey]
  refine eq_of_parts rfl ?_ rfl rfl ?_
  · apply Array.ext_getElem?
    intro k
    simp only [patch, Array.getElem?_modify]
    split
    · simp only [Option.map_map, Display.performAll_append]
      rfl
    · rfl
  · simp only [patch, Journal.recordAll_append, Journal.recordAll_patches]

/-- A console that has stored its queue finds nothing more to store. -/
theorem Sound.flush_run (h : s.Sound) (hc : s.consoles[id]? = some c)
    {f : Surface → Console → Output Console} (hf : Console.Stepwise f)
    (hqueue : (f (s.surface id c) c).value.queue = []) : (s.run id f).flush id = s.run id f := by
  rw [flush, h.run_run hf]
  refine run_congr hc ?_
  calc (f (s.surface id c) c >>= fun c' => c'.flush (s.surface id c))
      = f (s.surface id c) c >>= pure :=
        Output.bind_congr (Console.flush_of_queue_eq_nil (h.outcome hc hf).2 hqueue)
    _ = f (s.surface id c) c := bind_pure _

/-- **Two edits are a flush and the patches of both.** -/
theorem Sound.run_obey_obey {command' : Command} (h : s.Sound) (hc : s.consoles[id]? = some c)
    (hedit : command.IsEdit) (hedit' : command'.IsEdit) :
    ((s.run id fun surface c => c.obey surface command).run id
        fun surface c => c.obey surface command') =
      (s.flush id).patch c.region.display c.origin
        (command.patches (s.surface id c) c.row c.col ++
          command'.patches (s.surface id c) c.row c.col) := by
  have hplaced := h.placed hc
  have hvalue : (c.obey (s.surface id c) command).value = c.flushed (s.surface id c) := by
    rw [Console.obey_edit (h.drawn hc) hedit]
  have hstored := h.flush_run hc stepwise_obey (by rw [hvalue]; rfl)
  have hsound : (s.run id fun surface c => c.obey surface command).Sound :=
    h.run id stepwise_obey
  have hagain := hsound.run_obey_edit (consoles_run_self hc) hedit'
  rw [hstored, hvalue, surface_run, surface_congr rfl] at hagain
  have hrow : (c.flushed (s.surface id c)).row = c.row := Console.confineRow_of_lt hplaced.row_lt
  have hcol : (c.flushed (s.surface id c)).col = c.col :=
    Console.confineColumn_of_le hplaced.col_le
  rw [hrow, hcol, h.run_obey_edit hc hedit] at hagain
  rw [h.run_obey_edit hc hedit, hagain]
  exact patch_patch _ _ _ _

end Seat

end TextConsole
