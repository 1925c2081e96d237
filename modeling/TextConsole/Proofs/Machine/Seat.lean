import TextConsole.Proofs.Machine.Agreement
import TextConsole.Proofs.Reachable
import TextConsole.Seat.Snapshot

/-!
# No history stops a seat

A seat as a machine runs it. Its consoles compute on machine words, and a run of words
that linear memory does not hold stops the machine, whether it is stored, moved or read.
`Seat.carryOut?` and its companions have no result where the machine stops or goes on for
ever. For a seat of a configuration whose tab width is not half of all the signed words
there is always a result, the one that the seat itself gives (`carryOutAll?_eq`), and every
row of every window can be read.
-/

namespace TextConsole

/-! ## Displays -/

namespace Display

/-- Whether a display holds the runs of an effect. Empty runs have to lie in memory too. -/
def Takes (d : Display) : Effect → Prop
  | .write dest run => d.memory.Fits dest run.length
  | .fill dest len => d.memory.Fits dest len
  | .copy src dest len => d.memory.Fits src len ∧ d.memory.Fits dest len
  | .setBlank _ => True
  | .setRegister _ _ => True
  | .ring => True

instance (d : Display) (e : Effect) : Decidable (d.Takes e) :=
  match e with
  | .write _ _ => inferInstanceAs (Decidable (d.memory.Fits _ _))
  | .fill _ _ => inferInstanceAs (Decidable (d.memory.Fits _ _))
  | .copy _ _ _ => inferInstanceAs (Decidable (_ ∧ _))
  | .setBlank _ => isTrue trivial
  | .setRegister _ _ => isTrue trivial
  | .ring => isTrue trivial

/-- Carries out an effect, if the display takes it. -/
def perform? (d : Display) (e : Effect) : Option Display :=
  if d.Takes e then some (d.perform e) else none

/-- Carries out effects in their order, if the display takes them all. -/
def performAll? (d : Display) (effects : Array Effect) : Option Display :=
  effects.foldlM perform? d

/-- Linear memory does not even hold nothing past its end. -/
example : (Display.ofConfig { capacity := 8 } false).perform? (.fill 9 0) = none := by decide

end Display

/-! ## Seats

Each definition follows the one of its name in `Seat`, and `carryOut?` follows `apply`. -/

namespace Seat

variable (s : Seat)

/-- Runs a computation of console `id` and carries out its effects. -/
def run? (id : Nat) (f : Surface → RawConsole → Checked RawConsole) : Option Seat :=
  match s.consoles[id]? with
  | none => some s
  | some c => do
      let display ← s.displays[c.region.display]?
      let surface := s.surface id c
      let out ← (f surface c.raw : Option (Output RawConsole))
      let rest ← out.value.rest?
      let display ← (display.setBlank c.blank).performAll? out.effects
      return { s with
        consoles := s.consoles.setIfInBounds id rest
        displays := s.displays.setIfInBounds c.region.display display
        journal := s.journal.recordAll c.region.display surface.capacity out.effects }

def runAll? (f : Surface → RawConsole → Checked RawConsole) : Option Seat :=
  (List.range s.consoles.size).foldlM (fun s id => s.run? id f) s

def focus? (id : Nat) : Option Seat :=
  if id < s.consoles.size then run? { s with focused := id } id fun _ r => r.loadRegisters
  else some s

/-- The seat that a configuration describes, once its consoles are laid out. -/
def setUp? (config : Config) (regions : List Region) : Option Seat := do
  let s ← (ofRegions config regions).runAll? fun surface r => r.clearWindow surface
  s.focus? 0

/-! ## Operations -/

def send? (id : Nat) (byte : UInt8) : Option Seat :=
  s.run? id fun surface r => r.accept surface byte

def message? (byte : UInt8) : Option Seat :=
  if byte = 0x00 then s.run? 0 fun surface r => r.flush surface
  else if byte = 0x0A then do
    let s ← s.send? 0 0x0D
    s.send? 0 0x0A
  else s.send? 0 byte

def homeAll? : Option Seat := do
  let home ← s.runAll? fun surface r => r.goHome surface
  home.focus? s.focused

/-- Changes the way screens scroll, once every window is at home. -/
def switchScrolling? : Option Seat := do
  let home ← s.homeAll?
  return home.setSoftwareScroll (!home.settings.behavior.softwareScroll)

/-- Leaves the hardware as it was found. -/
def release? : Option Seat := do
  let home ← s.homeAll?
  let first ← (home.setSoftwareScroll true).focus? 0
  return first.resetFirst

/-- The seat after an operation. -/
def carryOut? : Operation → Option Seat
  | .send id byte => s.send? id byte
  | .sendRun id bytes => s.run? id fun surface r => r.acceptRun surface bytes
  | .flush id => s.run? id fun surface r => r.flush surface
  | .echo id byte => s.run? id fun surface r => r.echo surface byte
  | .message byte => s.message? byte
  | .acknowledge id => s.run? id fun _ r => r.acknowledge
  | .scroll id direction => s.run? id fun surface r => r.scroll surface direction
  | .focus id => s.focus? id
  | .homeAll => s.homeAll?
  | .switchScrolling => s.switchScrolling?
  | .switchBell => some s.switchBell
  | .release => s.release?
  | .installFont font =>
      match s.installFont font with
      | .ok loaded => some loaded
      | .error _ => some s

def carryOutAll? (ops : List Operation) : Option Seat := ops.foldlM carryOut? s

/-! ## Reading the screen -/

/-- The address of a row of a window. -/
def rowStart (c : Console) (row : Nat) : Checked Nat := do
  let offset ← Checked.mul row s.settings.screen.columns
  Checked.add c.origin offset

/-- The cells of a row of a window. -/
def readRow? (c : Console) (row : Nat) : Option (List Cell) := do
  let start ← (s.rowStart c row : Option (Output Nat))
  if (s.displayOf c).memory.Fits start.value s.settings.screen.columns then
    return (s.displayOf c).memory.read start.value s.settings.screen.columns
  else none

/-- The rows of a console's window, if there is such a console. -/
def readRows? (id : Nat) : Option (Option (List (List Cell))) :=
  match s.consoles[id]? with
  | none => some none
  | some c => do
      let rows ← (List.range s.settings.screen.rows).mapM (s.readRow? c)
      return some rows

end Seat

/-! ## Effects that displays take -/

namespace Surface.Describes

variable {s : Surface} {d : Display} {r : Region}

/-- Linear memory holds the runs that lie in a region of it. -/
theorem fits (h : s.Describes d) (hlimit : r.limit ≤ s.capacity) {addr len : Nat}
    (hwithin : s.Within r addr len) : d.memory.Fits addr len := by
  rcases hwithin.2 with hwraps | hbounds
  · exact Or.inl (h.wraps ▸ hwraps)
  · have hcapacity : s.capacity = d.memory.capacity := h.capacity
    exact Or.inr (by omega)

theorem takes (h : s.Describes d) (hlimit : r.limit ≤ s.capacity) {e : Effect}
    (hwithin : e.Within s r) : d.Takes e := by
  cases e with
  | write dest run => exact h.fits hlimit hwithin
  | fill dest len => exact h.fits hlimit hwithin
  | copy src dest len => exact ⟨h.fits hlimit hwithin.1, h.fits hlimit hwithin.2⟩
  | setBlank | setRegister | ring => trivial

/-- **A display takes all effects that touch a region only.** -/
theorem performAll?_eq (h : s.Describes d) (hlimit : r.limit ≤ s.capacity) {effects : Array Effect}
    (hwithin : ∀ e ∈ effects, e.Within s r) :
    d.performAll? effects = some (d.performAll effects) := by
  have key : ∀ l : List Effect, (∀ e ∈ l, e.Within s r) → ∀ d : Display, s.Describes d →
      l.foldlM Display.perform? d = some (l.foldl Display.perform d) := by
    intro l
    induction l with
    | nil => exact fun _ _ _ => rfl
    | cons e l ih =>
        intro hl d hd
        obtain ⟨he, hrest⟩ := List.forall_mem_cons.mp hl
        have hnext : s.Describes (d.perform e) := by
          simpa [Display.performAll] using hd.performAll #[e]
        have hperform : d.perform? e = some (d.perform e) := if_pos (hd.takes hlimit he)
        rw [List.foldlM_cons, List.foldl_cons, hperform]
        exact ih hrest _ hnext
  have hlist := key effects.toList (fun e he => hwithin e (Array.mem_toList_iff.mp he)) d h
  unfold Display.performAll? Display.performAll
  rw [← Array.foldlM_toList, ← Array.foldl_toList]
  exact hlist

end Surface.Describes

/-! ## Runs -/

/-- A console comes to rest where it was. -/
theorem Console.rest?_raw (c : Console) : c.raw.rest? = some c := by
  unfold RawConsole.rest?
  rw [if_pos ⟨Int.natCast_nonneg _, Int.natCast_nonneg _⟩]
  rfl

/-- Whether a computation goes through on machine words, and as another one on numbers of
any size, for a console in its place and settings of some kind. -/
def RawConsole.Follows (P : Settings → Prop) (g : Surface → RawConsole → Checked RawConsole)
    (f : Surface → Console → Output Console) : Prop :=
  ∀ {s : Surface} {c : Console}, s.Holds c.region → c.WellPlaced s → P s.settings →
    g s c.raw = (f s c).checked

namespace Seat

variable {s : Seat} {P : Settings → Prop} {g : Surface → RawConsole → Checked RawConsole}
  {f : Surface → Console → Output Console}

/-- An element of an array that changes is one that is put in its place. -/
theorem modify_eq_setIfInBounds {α : Type} {xs : Array α} {i : Nat} {x : α} (h : xs[i]? = some x)
    (g : α → α) : xs.modify i g = xs.setIfInBounds i (g x) := by
  obtain ⟨hlt, hx⟩ := Array.getElem?_eq_some_iff.mp h
  apply Array.ext_getElem?
  intro j
  rw [Array.getElem?_modify, Array.getElem?_setIfInBounds]
  by_cases hj : i = j
  · subst hj
    rw [if_pos rfl, if_pos rfl, if_pos hlt, h]
    rfl
  · rw [if_neg hj, if_neg hj]

/-- A computation that goes through for the console at hand goes through on the seat. -/
theorem Sound.run?_of_checked (h : s.Sound) (hf : Console.Stepwise f) (id : Nat)
    (hchecked : ∀ c, s.consoles[id]? = some c →
      g (s.surface id c) c.raw = (f (s.surface id c) c).checked) :
    s.run? id g = some (s.run id f) := by
  cases hc : s.consoles[id]? with
  | none => rw [run_of_none hc, run?, hc]
  | some c =>
      have hholds := h.holds hc
      have hplaced := h.placed hc
      -- The effects stay in the region, so the display takes them all.
      have hwithin := (hf hholds hplaced).effects_within hholds hplaced
      have hdisplay := h.getElem?_display hc
      have hdescribes : (s.surface id c).Describes ((s.displayOf c).setBlank c.blank) :=
        ⟨rfl, rfl, rfl⟩
      have heffects := hdescribes.performAll?_eq hholds.limit_le hwithin
      rw [run_of_some hc, run?, hc, modify_eq_setIfInBounds hdisplay]
      simp only [hdisplay, hchecked c hc, Output.checked, Console.rest?_raw, heffects,
        Option.bind_eq_bind, Option.bind_some, Option.pure_def]

theorem Sound.run?_eq (h : s.Sound) (hP : P s.settings) (hf : Console.Stepwise f)
    (hfollows : RawConsole.Follows P g f) (id : Nat) : s.run? id g = some (s.run id f) :=
  h.run?_of_checked hf id fun _ hc => hfollows (h.holds hc) (h.placed hc) hP

/-- What goes through with any settings goes through. -/
theorem Sound.run?_eq_of_always (h : s.Sound) (hf : Console.Stepwise f)
    (hfollows : RawConsole.Follows (fun _ => True) g f) (id : Nat) :
    s.run? id g = some (s.run id f) :=
  h.run?_eq (P := fun _ => True) trivial hf hfollows id

/-- The operator's switches do not touch the tab stops. -/
theorem Move.tabsFit {s' : Seat} (h : Move s s') (ht : s.settings.TabsFit) :
    s'.settings.TabsFit := by
  cases h with
  | run id hf =>
      rw [settings_run]
      exact ht
  | switch | refocus | reset | enter => exact ⟨ht.pow, ht.ne_half⟩

theorem Moves.tabsFit {s' : Seat} (h : Moves s s') (ht : s.settings.TabsFit) :
    s'.settings.TabsFit := by
  induction h with
  | refl => exact ht
  | tail _ hmove ih => exact hmove.tabsFit ih

theorem Sound.runAll?_eq (h : s.Sound) (hf : Console.Stepwise f)
    (hfollows : RawConsole.Follows (fun _ => True) g f) : s.runAll? g = some (s.runAll f) := by
  have key : ∀ ids : List Nat, ∀ s : Seat, s.Sound →
      ids.foldlM (fun s id => s.run? id g) s = some (ids.foldl (fun s id => s.run id f) s) := by
    intro ids
    induction ids with
    | nil => exact fun _ _ => rfl
    | cons id ids ih =>
        intro s hs
        have hmove : Move s (s.run id f) := .run id hf
        rw [List.foldlM_cons, List.foldl_cons, hs.run?_eq_of_always hf hfollows]
        exact ih _ (hmove.sound hs)
  exact key _ s h

theorem Sound.focus?_eq (h : s.Sound) (id : Nat) : s.focus? id = some (s.focus id) := by
  unfold focus? focus
  split
  · rename_i hid
    have hmove : Move s { s with focused := id } := .refocus hid
    exact (hmove.sound h).run?_eq_of_always stepwise_loadRegisters (fun _ _ _ => rfl) id
  · rfl

/-! ## Operations -/

theorem Sound.send?_eq (h : s.Sound) (ht : s.settings.TabsFit) (id : Nat) (byte : UInt8) :
    s.send? id byte = some (s.send id byte) :=
  h.run?_eq ht (stepwise_accept byte)
    (fun hs hc ht => RawConsole.accept_raw hs hc fun _ _ => ht) id

theorem Sound.flush?_eq (h : s.Sound) (id : Nat) :
    s.run? id (fun surface r => r.flush surface) = some (s.flush id) :=
  h.run?_eq_of_always stepwise_flush (fun hs hc _ => RawConsole.flush_raw hs hc.origin_within) id

theorem Sound.message?_eq (h : s.Sound) (ht : s.settings.TabsFit) (byte : UInt8) :
    s.message? byte = some (s.message byte) := by
  unfold message? message
  split
  · exact h.flush?_eq 0
  · split
    · have hmoves : Moves s (s.send 0 0x0D) := moves_send 0 0x0D
      rw [h.send?_eq ht]
      exact (Moves.sound hmoves h).send?_eq (Moves.tabsFit hmoves ht) 0 0x0A
    · exact h.send?_eq ht 0 byte

theorem Sound.homeAll?_eq (h : s.Sound) : s.homeAll? = some s.homeAll := by
  have hmoves : Moves s (s.runAll fun surface c => c.goHome surface) :=
    moves_runAll stepwise_goHome
  have hhome := h.runAll?_eq (g := fun surface r => r.goHome surface) stepwise_goHome
    fun hs hc _ => RawConsole.goHome_raw hs hc
  unfold homeAll? homeAll
  rw [hhome]
  exact (Moves.sound hmoves h).focus?_eq s.focused

theorem Sound.switchScrolling?_eq (h : s.Sound) : s.switchScrolling? = some s.switchScrolling := by
  have hsettings : s.homeAll.settings = s.settings := by
    rw [homeAll, settings_focus, settings_runAll]
  unfold switchScrolling? switchScrolling
  rw [h.homeAll?_eq, ← hsettings]
  rfl

theorem Sound.release?_eq (h : s.Sound) : s.release? = some s.release := by
  have hmoves : Moves s (s.homeAll.setSoftwareScroll true) :=
    Relation.ReflTransGen.trans moves_homeAll (moves_setSoftwareScroll true)
  have hfocus := (Moves.sound hmoves h).focus?_eq 0
  unfold release?
  rw [h.homeAll?_eq]
  show ((s.homeAll.setSoftwareScroll true).focus? 0 >>= fun first => some first.resetFirst) = _
  rw [hfocus]
  rfl

/-- **No operation stops a sound seat**, and each does what it does without a machine. -/
theorem Sound.carryOut?_eq (h : s.Sound) (ht : s.settings.TabsFit) (op : Operation) :
    s.carryOut? op = some (s.apply op) := by
  cases op with
  | send id byte => exact h.send?_eq ht id byte
  | sendRun id bytes =>
      have hrun := h.run?_eq (g := fun surface r => r.acceptRun surface bytes) ht
        (stepwise_acceptRun bytes) (fun hs hc ht => RawConsole.acceptRun_raw hs hc fun _ => ht) id
      exact hrun
  | flush id => exact h.flush?_eq id
  | echo id byte =>
      have hrun := h.run?_eq (g := fun surface r => r.echo surface byte) ht
        (stepwise_echo byte) (fun hs hc ht => RawConsole.echo_raw hs hc fun _ _ => ht) id
      exact hrun
  | message byte => exact h.message?_eq ht byte
  | acknowledge id =>
      have hrun := h.run?_eq_of_always (g := fun _ r => r.acknowledge) stepwise_acknowledge
        (fun _ _ _ => rfl) id
      exact hrun
  | scroll id direction =>
      have hrun := h.run?_eq_of_always (g := fun surface r => r.scroll surface direction)
        (stepwise_scroll direction) (fun hs hc _ => RawConsole.scroll_raw hs hc direction) id
      exact hrun
  | focus id => exact h.focus?_eq id
  | homeAll => exact h.homeAll?_eq
  | switchScrolling => exact h.switchScrolling?_eq
  | switchBell => rfl
  | release => exact h.release?_eq
  | installFont font =>
      cases hfont : s.installFont font with
      | ok loaded => simp only [carryOut?, apply, hfont]
      | error e => simp only [carryOut?, apply, hfont]

theorem Sound.carryOutAll?_eq (h : s.Sound) (ht : s.settings.TabsFit) (ops : List Operation) :
    s.carryOutAll? ops = some (s.applyAll ops) := by
  induction ops generalizing s with
  | nil => rfl
  | cons op ops ih =>
      have hmoves : Moves s (s.apply op) := moves_apply op
      have happly := h.carryOut?_eq ht op
      unfold carryOutAll? at ih ⊢
      rw [List.foldlM_cons, happly]
      exact ih (Moves.sound hmoves h) (Moves.tabsFit hmoves ht)

/-- **Bytes without a tab stop no seat**, whatever the width of its tabs. -/
theorem Sound.carryOutAll?_sends (h : s.Sound) (id : Nat) {bytes : List UInt8}
    (htab : 0x09 ∉ bytes) :
    s.carryOutAll? (bytes.map (.send id)) = some (s.applyAll (bytes.map (.send id))) := by
  induction bytes generalizing s with
  | nil => rfl
  | cons byte bytes ih =>
      obtain ⟨hbyte, hbytes⟩ := not_or.mp (mt List.mem_cons.mpr htab)
      have hrun := h.run?_of_checked (g := fun surface r => r.accept surface byte)
        (stepwise_accept byte) id fun _ hc =>
          RawConsole.accept_raw (h.holds hc) (h.placed hc) fun htab _ => absurd htab.symm hbyte
      have hsend : s.carryOut? (.send id byte) = some (s.apply (.send id byte)) := hrun
      unfold carryOutAll? at ih ⊢
      rw [List.map_cons, List.foldlM_cons, hsend]
      exact ih (Moves.sound (moves_apply (.send id byte)) h) hbytes

theorem Sound.carryOut?_sendRun (h : s.Sound) (id : Nat) {bytes : List UInt8}
    (htab : 0x09 ∉ bytes) :
    s.carryOut? (.sendRun id bytes) = some (s.apply (.sendRun id bytes)) := by
  have hrun := h.run?_of_checked (g := fun surface r => r.acceptRun surface bytes)
    (stepwise_acceptRun bytes) id fun _ hc =>
      RawConsole.acceptRun_raw (h.holds hc) (h.placed hc) fun htaken => absurd htaken.mem htab
  exact hrun

/-- With the one width of tabs that does not fit, a tab outside any escape sequence stops a
run of bytes. -/
theorem Sound.carryOut?_sendRun_stops (h : s.Sound)
    (hhalf : s.settings.behavior.tabWidth = 0x80000000) {id : Nat} {c : Console}
    (hc : s.consoles[id]? = some c) {bytes : List UInt8}
    (htab : c.TakesTab (s.surface id c) bytes) : s.carryOut? (.sendRun id bytes) = none := by
  have hstop := RawConsole.acceptRun_stops (h.holds hc) (h.placed hc) hhalf htab
  show s.run? id (fun surface r => r.acceptRun surface bytes) = none
  rw [run?, hc]
  dsimp only
  rw [h.getElem?_display hc, hstop]
  rfl

/-- Nothing else stops a run of bytes. -/
theorem Sound.carryOut?_sendRun_goes (h : s.Sound)
    (hpow : s.settings.behavior.tabWidth.isPowerOfTwo) {id : Nat} {c : Console}
    (hc : s.consoles[id]? = some c) {bytes : List UInt8}
    (hgoes : ¬ (s.settings.behavior.tabWidth = 0x80000000 ∧ c.TakesTab (s.surface id c) bytes)) :
    s.carryOut? (.sendRun id bytes) = some (s.sendRun id bytes) := by
  have hrun := h.run?_of_checked (g := fun surface r => r.acceptRun surface bytes)
    (stepwise_acceptRun bytes) id fun c' hc' => by
      obtain rfl := Option.some.inj (hc.symm.trans hc')
      refine RawConsole.acceptRun_raw (h.holds hc) (h.placed hc) fun htaken => ⟨hpow, ?_⟩
      exact fun hhalf => hgoes ⟨hhalf, htaken⟩
  exact hrun

/-! ## Reading the screen -/

/-- Every row of a window can be read. -/
theorem Sound.readRow?_eq (h : s.Sound) {id : Nat} {c : Console} (hc : s.consoles[id]? = some c)
    {row : Nat} (hrow : row < s.settings.screen.rows) :
    s.readRow? c row =
      some (c.windowRow (s.displayOf c).memory s.settings.screen.columns row) := by
  have hholds := h.holds hc
  have hwindow := (h.placed hc).origin_within
  have hrow' : row < (s.surface id c).rows := hrow
  have hle := (s.surface id c).offset_le hrow' (Nat.le_refl _)
  have hsize := hholds.size_le
  have horigin := hwindow.origin_le hholds
  have hfits := (hwindow.holdsWindow hholds (surface_describes id c)).fits_add hle
  have hcolumns : (s.surface id c).columns = s.settings.screen.columns := rfl
  rw [hcolumns] at hle hfits
  have hstart : s.rowStart c row = pure (c.origin + row * s.settings.screen.columns) := by
    unfold rowStart
    rw [Checked.mul_of_lt (by omega), pure_bind, Checked.add_of_lt (by omega)]
  unfold readRow?
  rw [hstart]
  exact if_pos hfits

/-- The rows that are read are those that the console shows. -/
theorem Sound.readRows?_eq (h : s.Sound) (id : Nat) : s.readRows? id = some (s.rows? id) := by
  unfold readRows? rows?
  cases hc : s.consoles[id]? with
  | none => rfl
  | some c =>
      have key : ∀ rows : List Nat, (∀ row ∈ rows, row < s.settings.screen.rows) →
          rows.mapM (s.readRow? c) =
            some (rows.map (c.windowRow (s.displayOf c).memory s.settings.screen.columns)) := by
        intro rows
        induction rows with
        | nil => exact fun _ => rfl
        | cons row rows ih =>
            intro hrows
            obtain ⟨hrow, hrest⟩ := List.forall_mem_cons.mp hrows
            rw [List.mapM_cons, h.readRow?_eq hc hrow, ih hrest]
            rfl
      have hread := key (List.range s.settings.screen.rows) fun row hrow => List.mem_range.mp hrow
      dsimp only
      rw [hread]
      rfl

/-! ## Histories -/

variable {config : Config} {regions : List Region} {seat : Seat}

/-- The tab stops of a new seat are those of its configuration. -/
theorem tabsFit_ofRegions (hvalid : config.Valid)
    (htab : config.behavior.tabWidth ≠ 0x80000000) :
    (ofRegions config regions).settings.TabsFit := ⟨hvalid.tabWidth, htab⟩

/-- Nothing stops a seat while it is set up, whatever the width of its tabs. -/
theorem setUp?_eq (hvalid : config.Valid) (hlayout : config.layout = .ok regions) :
    setUp? config regions = some (((ofRegions config regions).runAll clearWindow).focus 0) := by
  have hsound := sound_ofRegions hvalid hlayout
  have hmoves : Moves (ofRegions config regions) ((ofRegions config regions).runAll clearWindow) :=
    moves_runAll stepwise_clearWindow
  have hclear := hsound.runAll?_eq (g := fun surface r => r.clearWindow surface)
    stepwise_clearWindow fun hs _ _ => RawConsole.clearWindow_raw hs
  unfold setUp?
  rw [hclear]
  exact (Moves.sound hmoves hsound).focus?_eq 0

/-- **No history stops a seat.** On machine words, from the setting up of a configuration
on, every sum, product and difference stays in its range, memory holds every run that is
stored, moved or read, and every loop ends, with the effects and the results that numbers
of any size give. Excluded is the one width of tabs that is half of all the signed words. -/
theorem history_never_stops (hseat : ofConfig config = .ok seat)
    (htab : config.behavior.tabWidth ≠ 0x80000000) :
    (∃ regions, config.layout = .ok regions ∧ setUp? config regions = some seat) ∧
      ∀ ops, seat.carryOutAll? ops = some (seat.applyAll ops) ∧
        ∀ id, (seat.applyAll ops).readRows? id = some ((seat.applyAll ops).rows? id) := by
  obtain ⟨regions, hvalid, hlayout, heq⟩ := ofConfig_eq hseat
  have hreached : Reached config seat := ⟨seat, [], hseat, rfl⟩
  have hmoves : Moves (ofRegions config regions) seat := by
    rw [heq]
    exact moves_ofRegions
  have htabs := Moves.tabsFit hmoves (tabsFit_ofRegions hvalid htab)
  refine ⟨⟨regions, hlayout, ?_⟩, ?_⟩
  · rw [setUp?_eq hvalid hlayout, heq]
  · intro ops
    have hafter : Reached config (seat.applyAll ops) := ⟨seat, ops, hseat, rfl⟩
    exact ⟨hreached.sound.carryOutAll?_eq htabs ops, fun id => hafter.sound.readRows?_eq id⟩

/-- A display of eight words, all of which are one screen. -/
def fullDisplay : Config where
  screen := ⟨4, 2⟩
  behavior := { maxConsoles := 1 }
  displays := [{ capacity := 8 }]

/-- With both rows full, the cursor is past the last word of memory, where blanking to the
end of the row stores an empty run. -/
theorem history_never_stops_fullDisplay :
    ∃ seat, ofConfig fullDisplay = .ok seat ∧
      seat.carryOutAll?
          [.sendRun 0 [0x41, 0x42, 0x43, 0x44, 0x45, 0x46, 0x47, 0x48, 0x1B, 0x5B, 0x4B],
            .scroll 0 .down, .homeAll] =
        some (seat.applyAll
          [.sendRun 0 [0x41, 0x42, 0x43, 0x44, 0x45, 0x46, 0x47, 0x48, 0x1B, 0x5B, 0x4B],
            .scroll 0 .down, .homeAll]) := by
  have hnever := @history_never_stops fullDisplay _ rfl (by decide)
  exact ⟨_, rfl, (hnever.2 _).1⟩

end Seat

end TextConsole
