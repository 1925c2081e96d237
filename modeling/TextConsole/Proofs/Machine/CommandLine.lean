import TextConsole.CommandLine
import TextConsole.Proofs.Machine.Seat
import TextConsole.Proofs.Transcript

/-!
# Where a run of the program stops

The program as a machine runs it. A machine sets up the seat, feeds it and reads its screen,
and where it stops nothing is printed. It has one reason to stop: the width of tabs is half of
all the signed words, and there is a tab in the input outside any escape sequence
(`CommandLine.run?_eq_or_stops`). Which tabs those are is told by the bytes alone
(`Escape.Reading.TakesTab`). In every other case a run prints what it prints without a machine.
-/

namespace TextConsole

/-! ## Tabs among bytes -/

namespace Escape.Reading

/-- Whether there is a tab among bytes, outside any escape sequence. -/
def TakesTab (r : Reading) : List UInt8 → Prop
  | [] => False
  | byte :: bytes => (byte = 0x09 ∧ r.state.isCollecting = false) ∨ (r.byte byte).TakesTab bytes

instance decidableTakesTab : ∀ (r : Reading) (bytes : List UInt8), Decidable (r.TakesTab bytes)
  | _, [] => isFalse id
  | r, byte :: bytes =>
      have := decidableTakesTab (r.byte byte) bytes
      inferInstanceAs (Decidable (_ ∨ _))

/-- A tab inside an escape sequence ends it, and the next one is taken. -/
example : ¬ TakesTab {} [0x1B, 0x09] ∧ TakesTab {} [0x1B, 0x09, 0x09] := by decide

end Escape.Reading

/-- A console comes to a tab where its reading does. -/
theorem Console.Recorded.takesTab_iff {s : Surface} (bytes : List UInt8) :
    ∀ {c : Console} {r : Escape.Reading} {log : List (UInt8 × Rendition)}, c.Recorded r log →
      (c.TakesTab s bytes ↔ r.TakesTab bytes) := by
  induction bytes with
  | nil => exact fun _ => Iff.rfl
  | cons byte bytes ih =>
      intro c r log h
      rw [Console.TakesTab, Escape.Reading.TakesTab, h.escape, ih (h.accept byte)]

namespace Seat

/-! ## A seat on a machine -/

/-- The seat that a configuration describes. -/
def ofConfig? (config : Config) : Option (Except ConfigError Seat) :=
  match config.validate with
  | .error e => some (.error e)
  | .ok () =>
      match config.layout with
      | .error e => some (.error e)
      | .ok regions => (setUp? config regions).map .ok

/-- A snapshot of a console, if there is such a console. -/
def readSnapshot? (s : Seat) (id : Nat) : Option (Option Snapshot) := do
  let rows ← s.readRows? id
  return s.consoles[id]?.map fun c =>
    { id := id
      focused := id = s.focused
      origin := c.origin
      cursorRow := c.row
      cursorCol := c.col
      lines := (rows.getD []).map textOf }

/-- Prints the first console after it has been fed the input. -/
def printAfter? (s : Seat) (json : Bool) (input : List UInt8) : Option Outcome := do
  let fed ← s.carryOut? (.sendRun 0 input)
  let snapshot ← fed.readSnapshot? 0
  return .ofSnapshot json snapshot

variable {config : Config} {seat s : Seat}

/-- **Nothing stops a seat while it is set up**, whatever the configuration. -/
theorem ofConfig?_eq (config : Config) : ofConfig? config = some (ofConfig config) := by
  unfold ofConfig? ofConfig
  cases hvalidate : config.validate with
  | error e => rfl
  | ok =>
      cases hlayout : config.layout with
      | error e => rfl
      | ok regions =>
          dsimp only
          rw [setUp?_eq (Config.valid_of_validate hvalidate) hlayout]
          rfl

theorem Sound.readSnapshot?_eq (h : s.Sound) (id : Nat) :
    s.readSnapshot? id = some (s.snapshot? id) := by
  unfold readSnapshot?
  rw [h.readRows?_eq]
  rfl

/-- **When printing stops.** A new seat prints what it prints without a machine, unless it comes
to a tab whose stop does not fit. -/
theorem printAfter?_eq (hseat : ofConfig config = .ok seat) (json : Bool) (input : List UInt8) :
    seat.printAfter? json input =
      if config.behavior.tabWidth = 0x80000000 ∧ Escape.Reading.TakesTab {} input then none
      else some (seat.printAfter json input) := by
  obtain ⟨hfresh, hsound, hsettings⟩ := fresh_ofConfig hseat
  have hreached : Reached config seat := ⟨seat, [], hseat, rfl⟩
  obtain ⟨c, hc, _⟩ := hreached.first
  have hnew : c.Recorded {} [] := by
    rw [hfresh.console hc]
    exact ⟨rfl, Rendition.isProper_normal, rfl, List.nil_suffix⟩
  have hwidth : seat.settings.behavior.tabWidth = config.behavior.tabWidth := by rw [hsettings]
  have hpow : seat.settings.behavior.tabWidth.isPowerOfTwo := by
    obtain ⟨_, hvalid, _⟩ := ofConfig_eq hseat
    rw [hwidth]
    exact hvalid.tabWidth
  have htakes := hnew.takesTab_iff (s := seat.surface 0 c) input
  rw [← hwidth]
  unfold printAfter?
  split
  · rename_i hstops
    rw [hsound.carryOut?_sendRun_stops hstops.1 hc (htakes.mpr hstops.2)]
    rfl
  · rename_i hgoes
    rw [← htakes] at hgoes
    have hfed : Reached config (seat.sendRun 0 input) := ⟨seat, [.sendRun 0 input], hseat, rfl⟩
    rw [hsound.carryOut?_sendRun_goes hpow hc hgoes, Option.bind_eq_bind, Option.bind_some,
      hfed.sound.readSnapshot?_eq]
    rfl

/-- A display of eight words with one screen, and tabs of half of all the signed words. -/
def halfTabs : Config where
  screen := ⟨3, 2⟩
  behavior := { maxConsoles := 1, tabWidth := 0x80000000 }
  displays := [{ capacity := 8 }]

/-- The tab stops a machine. Where it goes around, the cursor goes back to the first column. -/
example : ∃ seat, ofConfig halfTabs = .ok seat ∧
    seat.printAfter? false [0x41, 0x09, 0x42] = none ∧
    seat.printAfter false [0x41, 0x09, 0x42] = .printed "B\n\n" :=
  ⟨_, rfl, by decide +kernel, by decide +kernel⟩

end Seat

/-! ## The program on a machine

Each definition follows the one of its name in `CommandLine`. -/

namespace CommandLine

section

variable {m : Type → Type} [Monad m]

def runWith? (readFile : String → m (Option ByteArray)) (readInput : m ByteArray)
    (o : Options) : m (Option Outcome) := do
  match ← Config.load readFile o.config with
  | .error e => return some (.failed (.load e))
  | .ok config =>
      match Seat.ofConfig? config with
      | none => return none
      | some (.error e) => return some (.failed (.layout e))
      | some (.ok seat) =>
          match o.input with
          | none => return seat.printAfter? o.json (← readInput).toList
          | some path =>
              match ← readFile path with
              | none => return some (.failed (.unreadableInput path))
              | some bytes => return seat.printAfter? o.json bytes.toList

def run? (readFile : String → m (Option ByteArray)) (readInput : m ByteArray)
    (args : List String) : m (Option Outcome) :=
  match Options.parse args with
  | .error refusal => return some (.refused refusal)
  | .ok o => runWith? readFile readInput o

end

variable {files : String → Option ByteArray} {stdin input : ByteArray} {args : List String}
  {o : Options} {config : Config} {seat : Seat}

/-- The configuration that a run loads is the one that it goes on with. -/
theorem bind_load {e : Except LoadError Config} {α : Type} {path : Option String}
    (hload : Config.load (m := Id) files path = e) (go : Except LoadError Config → Id α) :
    (Config.load (m := Id) files path >>= go) = go e := by
  rw [hload]
  rfl

/-- A run goes on with the file that is named, or with the standard input. -/
theorem readInput_eq {α : Type} (path? : Option String) (go : ByteArray → α)
    (refuse : String → α) :
    (match path? with
      | none => go stdin
      | some path =>
          match files path with
          | none => refuse path
          | some bytes => go bytes) =
      (path?.elim (some stdin) files).elim (refuse (path?.getD "")) go := by
  cases path? with
  | none => rfl
  | some path =>
      dsimp only [Option.elim_some, Option.getD_some]
      cases files path <;> rfl

/-- What a run prints when all that it needs is there. -/
theorem run_eq (hargs : Options.parse args = .ok o)
    (hload : Config.load (m := Id) files o.config = .ok config)
    (hseat : Seat.ofConfig config = .ok seat)
    (hinput : o.input.elim (some stdin) files = some input) :
    run (m := Id) files stdin args = seat.printAfter o.json input.toList := by
  rw [run, hargs]
  simp only [runWith, bind_load hload, hseat]
  refine (readInput_eq o.input (fun bytes => seat.printAfter o.json bytes.toList)
    fun path => .failed (.unreadableInput path)).trans ?_
  rw [hinput, Option.elim_some]

/-- **What a machine prints then**: the same, unless it comes to a tab whose stop does not fit. -/
theorem run?_eq (hargs : Options.parse args = .ok o)
    (hload : Config.load (m := Id) files o.config = .ok config)
    (hseat : Seat.ofConfig config = .ok seat)
    (hinput : o.input.elim (some stdin) files = some input) :
    run? (m := Id) files stdin args =
      if config.behavior.tabWidth = 0x80000000 ∧ Escape.Reading.TakesTab {} input.toList then none
      else some (run (m := Id) files stdin args) := by
  rw [run_eq hargs hload hseat hinput, ← Seat.printAfter?_eq hseat, run?, hargs]
  simp only [runWith?, bind_load hload, Seat.ofConfig?_eq, hseat]
  refine (readInput_eq o.input (fun bytes => seat.printAfter? o.json bytes.toList)
    fun path => some (.failed (.unreadableInput path))).trans ?_
  rw [hinput, Option.elim_some]

/-- **No run stops for any other reason.** Whatever the arguments, the files and the standard
input, a machine ends the run as it ends without a machine, or the configuration has the one
width of tabs that does not fit and there is a tab in the input. -/
theorem run?_eq_or_stops (files : String → Option ByteArray) (stdin : ByteArray)
    (args : List String) :
    run? (m := Id) files stdin args = some (run (m := Id) files stdin args) ∨
      run? (m := Id) files stdin args = none ∧ ∃ o config input, Options.parse args = .ok o ∧
        Config.load (m := Id) files o.config = .ok config ∧
        o.input.elim (some stdin) files = some input ∧
        config.behavior.tabWidth = 0x80000000 ∧ Escape.Reading.TakesTab {} input.toList := by
  rcases hargs : Options.parse args with refusal | o
  · rw [run, run?, hargs]
    exact Or.inl rfl
  rcases hload : Config.load (m := Id) files o.config with e | config
  · rw [run, run?, hargs]
    simp only [runWith, runWith?, bind_load hload]
    exact Or.inl rfl
  rcases hseat : Seat.ofConfig config with e | seat
  · rw [run, run?, hargs]
    simp only [runWith, runWith?, bind_load hload, Seat.ofConfig?_eq, hseat]
    exact Or.inl rfl
  rcases hinput : o.input.elim (some stdin) files with _ | input
  · rcases hpath : o.input with _ | path
    · rw [hpath] at hinput
      cases hinput
    · rw [hpath] at hinput
      have hfile : files path = (pure none : Id _) := hinput
      rw [run, run?, hargs]
      simp only [runWith, runWith?, bind_load hload, pure_bind, Seat.ofConfig?_eq, hseat, hpath,
        hfile]
      exact Or.inl rfl
  · rw [run?_eq hargs hload hseat hinput]
    split
    · rename_i hstops
      exact Or.inr ⟨rfl, o, config, input, rfl, hload, hinput, hstops.1, hstops.2⟩
    · exact Or.inl rfl

end CommandLine

end TextConsole
