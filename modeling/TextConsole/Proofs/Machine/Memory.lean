import TextConsole.Config
import TextConsole.Proofs.Memory

/-!
# Video memory on machine words

Reads, stores and moves as a machine carries them out, with addresses of 64 bits. On wrapping
memory an address is one more for each cell of a run, past the last address again zero, and a
mask of its low bits selects a word. On linear memory a run is a slice, and a slice that memory
does not hold stops the machine.

The capacity of memory is a power of two, so that the numbers at which addresses start again are
no end of memory: each operation goes through and does what it does with addresses of any size
(`Masked.readWords?_eq`, `Masked.writeWords?_eq`, `Masked.copyWords?_eq`). A run may be longer
than memory and come by the same word many times. What was stored there last stays, and a move
still takes every cell as it was before the move (`stores_keep_last`).
-/

namespace TextConsole

/-! ## Runs to be stored -/

/-- What is stored at consecutive addresses: some cells, or a number of blanks. -/
inductive Run where
  | cells (list : List Cell)
  | blanks (len : Nat)
deriving DecidableEq, Repr

namespace Run

def length : Run → Nat
  | cells list => list.length
  | blanks len => len

/-- The cell of a run at an index, where blanks are stored as `blank`. -/
def cell (blank : Cell) : Run → Nat → Cell
  | cells list, i => list.getD i default
  | blanks _, _ => blank

def toList (blank : Cell) : Run → List Cell
  | cells list => list
  | blanks len => List.replicate len blank

@[simp] theorem length_toList (blank : Cell) (run : Run) :
    (run.toList blank).length = run.length := by
  cases run <;> simp [toList, length]

/-- A run is its cells in order. -/
theorem map_cell (blank : Cell) (run : Run) :
    (List.range run.length).map (run.cell blank) = run.toList blank := by
  apply List.ext_getElem
  · simp
  · intro i hi _
    cases run with
    | cells list =>
        have hlt : i < list.length := by simpa [length] using hi
        simp [cell, toList, hlt]
    | blanks len => simp [cell, toList]

end Run

namespace VideoMemory

variable {m m' : VideoMemory} {src dest : UInt64} {len : Nat}

/-! ## Operations on words -/

/-- The low bits of an address, which select a word. -/
def mask (m : VideoMemory) : UInt64 := UInt64.ofNat (m.capacity - 1)

def slot (m : VideoMemory) (addr : UInt64) : Nat := (addr &&& m.mask).toNat

def fetch? (m : VideoMemory) (addr : UInt64) : Option Cell := m.cells[m.slot addr]?

def put? (m : VideoMemory) (addr : UInt64) (c : Cell) : Option VideoMemory :=
  if m.slot addr < m.capacity then
    some { m with cells := m.cells.setIfInBounds (m.slot addr) c }
  else none

def readWords? (m : VideoMemory) (addr : UInt64) (len : Nat) : Option (List Cell) :=
  if m.wraps then (List.range len).mapM fun i => m.fetch? (addr + UInt64.ofNat i)
  else if addr.toNat + len ≤ m.capacity then some (m.read addr.toNat len)
  else none

def writeWords? (m : VideoMemory) (dest : UInt64) (run : Run) : Option VideoMemory :=
  if m.wraps then
    (List.range run.length).foldlM
      (fun m' i => m'.put? (dest + UInt64.ofNat i) (run.cell m.blankCell i)) m
  else if dest.toNat + run.length ≤ m.capacity then
    some (m.write dest.toNat (run.toList m.blankCell))
  else none

/-- Moves cells by way of a temporary, or within a slice. An empty move does nothing, wherever
it points. -/
def copyWords? (m : VideoMemory) (src dest : UInt64) (len : Nat) : Option VideoMemory :=
  if len = 0 then some m
  else if m.wraps then do
    let staged ← m.readWords? src len
    m.writeWords? dest (.cells staged)
  else if src.toNat + len ≤ m.capacity ∧ dest.toNat + len ≤ m.capacity then
    some (m.copy src.toNat dest.toNat len)
  else none

/-! ## Agreement with addresses of any size -/

/-- Whether a mask of low bits selects the words of a memory. -/
structure Masked (m : VideoMemory) : Prop where
  pow : m.capacity.isPowerOfTwo
  le : m.capacity ≤ 0x10000000000000000

namespace Masked

theorem pos (h : m.Masked) : 0 < m.capacity := by
  obtain ⟨k, hk⟩ := h.pow
  rw [hk]
  exact Nat.two_pow_pos k

theorem congr (h : m.Masked) (hcapacity : m'.capacity = m.capacity) : m'.Masked :=
  ⟨hcapacity ▸ h.pow, hcapacity ▸ h.le⟩

/-- An address that has gone past the last one selects the word that the sum would. -/
theorem slot_add (h : m.Masked) (addr : UInt64) (i : Nat) :
    m.slot (addr + UInt64.ofNat i) = (addr.toNat + i) % m.capacity := by
  obtain ⟨k, hk⟩ := h.pow
  have hle := h.le
  have hpos := h.pos
  have hdvd : m.capacity ∣ 2 ^ 64 := by
    rw [hk] at hle ⊢
    exact Nat.pow_dvd_pow 2 ((Nat.pow_le_pow_iff_right (by decide)).mp hle)
  have hmask : m.mask.toNat = 2 ^ k - 1 := by
    rw [mask, UInt64.toNat_ofNat', ← hk, Nat.mod_eq_of_lt (by omega)]
  rw [slot, UInt64.toNat_and, hmask, Nat.and_two_pow_sub_one_eq_mod, ← hk, UInt64.toNat_add,
    UInt64.toNat_ofNat', Nat.mod_mod_of_dvd _ hdvd, Nat.add_mod, Nat.mod_mod_of_dvd _ hdvd,
    ← Nat.add_mod]

theorem fetch?_add (h : m.Masked) (addr : UInt64) (i : Nat) :
    m.fetch? (addr + UInt64.ofNat i) = some (m.cell (addr.toNat + i)) := by
  have hlt : (addr.toNat + i) % m.capacity < m.cells.size := Nat.mod_lt _ h.pos
  rw [fetch?, h.slot_add, cell]
  simp [hlt]

theorem readWords?_eq (h : m.Masked) (hfits : m.Fits src.toNat len) :
    m.readWords? src len = some (m.read src.toNat len) := by
  unfold readWords?
  split
  · simp only [h.fetch?_add, read_eq hfits]
    exact List.mapM_pure
  · rename_i hw
    exact if_pos (hfits.resolve_left hw)

/-- Cells that are put into words one after the other are stored as a run. -/
theorem foldlM_put?_eq (h : m.Masked) (dest : UInt64) (source : Nat → Cell) (n : Nat) :
    (List.range n).foldlM (fun m' i => m'.put? (dest + UInt64.ofNat i) (source i)) m =
      some { m with cells := storeAround m.cells dest.toNat ((List.range n).map source) } := by
  induction n with
  | zero => rfl
  | succ n ih =>
      let stored : VideoMemory :=
        { m with cells := storeAround m.cells dest.toNat ((List.range n).map source) }
      have hcapacity : stored.capacity = m.capacity := size_storeAround ..
      have hstored := h.congr hcapacity
      have hput : stored.put? (dest + UInt64.ofNat n) (source n) =
          some { m with cells := storeAround stored.cells (dest.toNat + n) [source n] } := by
        rw [put?, hstored.slot_add, if_pos (Nat.mod_lt _ hstored.pos)]
        rfl
      rw [List.range_succ, List.foldlM_append, ih, List.map_append, storeAround_append,
        List.length_map, List.length_range]
      show (stored.put? (dest + UInt64.ofNat n) (source n) >>= pure) = _
      rw [hput]
      rfl

theorem writeWords?_eq (h : m.Masked) {run : Run} (hfits : m.Fits dest.toNat run.length) :
    m.writeWords? dest run = some (m.write dest.toNat (run.toList m.blankCell)) := by
  unfold writeWords?
  split
  · rw [h.foldlM_put?_eq, Run.map_cell, write_eq (by simpa using hfits)]
  · rename_i hw
    exact if_pos (hfits.resolve_left hw)

theorem copyWords?_eq (h : m.Masked) (hsrc : m.Fits src.toNat len)
    (hdest : m.Fits dest.toNat len) :
    m.copyWords? src dest len = some (m.copy src.toNat dest.toNat len) := by
  have hlength := length_read hsrc
  unfold copyWords?
  split
  · rename_i hzero
    rw [copy, if_pos hzero]
  · split
    · rw [h.readWords?_eq hsrc, Option.bind_eq_bind, Option.bind_some,
        h.writeWords?_eq (by rw [Run.length, hlength]; exact hdest), copy_eq_write hsrc hdest]
      rfl
    · rename_i hw
      exact if_pos ⟨hsrc.resolve_left hw, hdest.resolve_left hw⟩

end Masked

/-! ## What stays -/

/-- Whether `m'` is `m` after the cells of a run were stored one after the other: a word that the
run comes by holds the cell that was stored there last, and any other what it held. -/
structure Stored (m m' : VideoMemory) (dest len : Nat) (source : Nat → Cell) : Prop where
  capacity : m'.capacity = m.capacity
  wraps : m'.wraps = m.wraps
  blank : m'.blank = m.blank
  last : ∀ a < m.capacity, ∀ i < len, (dest + i) % m.capacity = a →
    (∀ j < len, (dest + j) % m.capacity = a → j ≤ i) → m'.cell a = source i
  other : ∀ a < m.capacity, (∀ i < len, (dest + i) % m.capacity ≠ a) → m'.cell a = m.cell a

/-- **A store keeps what comes last**, also of a run that is longer than memory. -/
theorem stored_write {dest : Nat} {run : List Cell} (h : m.Fits dest run.length) :
    Stored m (m.write dest run) dest run.length fun i => run.getD i default := by
  refine ⟨capacity_write .., wraps_write .., blank_write .., ?_, ?_⟩
  · intro a ha i hi hword hlast
    subst hword
    rw [cell, capacity_write, write_eq h, Nat.mod_mod]
    refine (getD_storeAround_last (Nat.zero_lt_of_lt ha) hi hlast).trans ?_
    simp [hi]
  · intro a ha hout
    apply cell_write_of_ne
    rwa [Nat.mod_eq_of_lt ha]

theorem Stored.congr {dest : Nat} {source source' : Nat → Cell} (h : Stored m m' dest len source)
    (heq : ∀ i < len, source i = source' i) : Stored m m' dest len source' :=
  ⟨h.capacity, h.wraps, h.blank,
    fun a ha i hi hword hlast => (h.last a ha i hi hword hlast).trans (heq i hi), h.other⟩

/-- **A move stores what the source held before it.** -/
theorem stored_copy {src dest : Nat} (hsrc : m.Fits src len) (hdest : m.Fits dest len) :
    Stored m (m.copy src dest len) dest len fun i => m.cell (src + i) := by
  have hlength := length_read hsrc
  have hfits : m.Fits dest (m.read src len).length := by
    rw [hlength]
    exact hdest
  have hstored := stored_write hfits
  rw [hlength] at hstored
  rw [copy_eq_write hsrc hdest]
  refine hstored.congr fun i hi => ?_
  simp [read_eq hsrc, hi]

/-! ## The two sorts of memory -/

/-- The same memory, if it wrapped. -/
def wrapping (m : VideoMemory) : VideoMemory := { m with wraps := true }

theorem fits_wrapping (addr len : Nat) : m.wrapping.Fits addr len := Or.inl rfl

theorem read_wrapping {addr : Nat} (h : m.Fits addr len) :
    m.wrapping.read addr len = m.read addr len := by
  rw [read_eq h, read_eq (fits_wrapping addr len)]
  rfl

theorem write_wrapping {dest : Nat} {run : List Cell} (h : m.Fits dest run.length) :
    m.wrapping.write dest run = (m.write dest run).wrapping := by
  rw [write_eq h, write_eq (fits_wrapping dest run.length)]
  rfl

theorem copy_wrapping {src dest : Nat} (hsrc : m.Fits src len) (hdest : m.Fits dest len) :
    m.wrapping.copy src dest len = (m.copy src dest len).wrapping := by
  rw [copy_eq_write hsrc hdest, copy_eq_write (fits_wrapping src len) (fits_wrapping dest len),
    read_wrapping hsrc, write_wrapping (by rwa [length_read hsrc])]

/-- **Moves and stores keep what comes last.** On wrapping memory, for addresses of 64 bits and
runs of any length: a move leaves in each word the cell that the source held, before the move,
for the last index that leads there; a store leaves the last cell of the run that leads there, and
a run no longer than memory is read back. On linear memory, runs that it holds are stored, moved
and read as if it wrapped. -/
theorem stores_keep_last (hpow : m.capacity.isPowerOfTwo) (hle : m.capacity ≤ capacityLimit) :
    (m.wraps = true → ∀ src dest : UInt64,
      (∀ len, m.copyWords? src dest len = some (m.copy src.toNat dest.toNat len) ∧
        Stored m (m.copy src.toNat dest.toNat len) dest.toNat len
          fun i => m.cell (src.toNat + i)) ∧
      ∀ run : Run,
        m.writeWords? dest run = some (m.write dest.toNat (run.toList m.blankCell)) ∧
        Stored m (m.write dest.toNat (run.toList m.blankCell)) dest.toNat run.length
          (run.cell m.blankCell) ∧
        (run.length ≤ m.capacity →
          (m.write dest.toNat (run.toList m.blankCell)).readWords? dest run.length =
            some (run.toList m.blankCell))) ∧
    (m.wraps = false → ∀ src dest : UInt64,
      (∀ len, src.toNat + len ≤ m.capacity → dest.toNat + len ≤ m.capacity →
        m.copyWords? src dest len = some (m.copy src.toNat dest.toNat len) ∧
        m.wrapping.copyWords? src dest len = some (m.copy src.toNat dest.toNat len).wrapping) ∧
      (∀ run : Run, dest.toNat + run.length ≤ m.capacity →
        m.writeWords? dest run = some (m.write dest.toNat (run.toList m.blankCell)) ∧
        m.wrapping.writeWords? dest run =
          some (m.write dest.toNat (run.toList m.blankCell)).wrapping) ∧
      ∀ len, src.toNat + len ≤ m.capacity →
        m.readWords? src len = some (m.read src.toNat len) ∧
        m.wrapping.readWords? src len = some (m.read src.toNat len)) := by
  have hmasked : m.Masked := ⟨hpow, by unfold capacityLimit at hle; omega⟩
  have hwrapping : m.wrapping.Masked := hmasked.congr rfl
  refine ⟨?_, ?_⟩
  · intro hwraps src dest
    have hfits : ∀ addr len, m.Fits addr len := fun _ _ => Or.inl hwraps
    refine ⟨?_, ?_⟩
    · intro len
      exact ⟨hmasked.copyWords?_eq (hfits _ _) (hfits _ _), stored_copy (hfits _ _) (hfits _ _)⟩
    · intro run
      have hstored := stored_write (hfits dest.toNat (run.toList m.blankCell).length)
      rw [Run.length_toList] at hstored
      refine ⟨hmasked.writeWords?_eq (hfits _ _), hstored.congr ?_, ?_⟩
      · intro i hi
        rw [← Run.map_cell]
        simp [hi]
      · intro hlen
        have hmasked' := hmasked.congr (capacity_write m dest.toNat (run.toList m.blankCell))
        have hfits' : (m.write dest.toNat (run.toList m.blankCell)).Fits dest.toNat run.length :=
          Or.inl ((wraps_write ..).trans hwraps)
        rw [hmasked'.readWords?_eq hfits', read_eq hfits', Option.some.injEq]
        apply List.ext_getElem
        · simp
        · intro i _ hi
          rw [List.getElem_map, List.getElem_range, cell_write_add (hfits _ _) (by simpa) hi]
  · intro hlinear src dest
    have hfits : ∀ {addr len}, addr + len ≤ m.capacity → m.Fits addr len := fun h => Or.inr h
    refine ⟨?_, ?_, ?_⟩
    · intro len hsrc hdest
      refine ⟨hmasked.copyWords?_eq (hfits hsrc) (hfits hdest), ?_⟩
      rw [hwrapping.copyWords?_eq (fits_wrapping _ _) (fits_wrapping _ _),
        copy_wrapping (hfits hsrc) (hfits hdest)]
    · intro run hdest
      refine ⟨hmasked.writeWords?_eq (hfits hdest), ?_⟩
      rw [hwrapping.writeWords?_eq (fits_wrapping _ _),
        ← write_wrapping (by rw [Run.length_toList]; exact hfits hdest)]
      rfl
    · intro len hsrc
      refine ⟨hmasked.readWords?_eq (hfits hsrc), ?_⟩
      rw [hwrapping.readWords?_eq (fits_wrapping _ _), read_wrapping (hfits hsrc)]

/-- Four words, which hold the first four letters. -/
def fourLetters (wraps : Bool) : VideoMemory where
  cells := #[⟨0x0741⟩, ⟨0x0742⟩, ⟨0x0743⟩, ⟨0x0744⟩]
  wraps := wraps

/-- A move of six cells on four words, from the last address of all. The last word is reached
twice, and keeps what the first one held. Where two runs overlap, both sorts of memory move
alike. -/
theorem stores_keep_last_fourLetters :
    (∃ m, (fourLetters true).copyWords? 0xFFFFFFFFFFFFFFFF 0xFFFFFFFFFFFFFFFE 6 = some m ∧
      m.cell 3 = ⟨0x0741⟩) ∧
    ∃ m, (fourLetters false).copyWords? 0 1 3 = some m ∧
      (fourLetters true).copyWords? 0 1 3 = some m.wrapping ∧
      m.cells = #[⟨0x0741⟩, ⟨0x0741⟩, ⟨0x0742⟩, ⟨0x0743⟩] := by
  have hring := (@stores_keep_last (fourLetters true) ⟨2, rfl⟩ (by decide)).1 rfl
  have hslices := (@stores_keep_last (fourLetters false) ⟨2, rfl⟩ (by decide)).2 rfl
  obtain ⟨hmove, hstored⟩ := (hring 0xFFFFFFFFFFFFFFFF 0xFFFFFFFFFFFFFFFE).1 6
  obtain ⟨hlinear, hwrapping⟩ := (hslices 0 1).1 3 (by decide) (by decide)
  refine ⟨⟨_, hmove, ?_⟩, _, hlinear, hwrapping, by decide +kernel⟩
  exact (hstored.last 3 (by decide) 5 (by decide) (by decide) (by decide)).trans (by decide +kernel)

end VideoMemory

end TextConsole
