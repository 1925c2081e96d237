import TextConsole.VideoMemory
import Mathlib.Data.Nat.ModEq

/-!
# Laws of video memory

What a store and a move do, cell by cell. A run that fits its memory and is no
longer than it reaches every word at most once, and then the two sorts of memory
behave alike: linear memory stores as if it wrapped (`write_eq`), and a move is a
store of what was read before (`copy_eq_write`). Every later argument about the
contents of memory goes through four laws: a store and a fill put their cells
where they say (`cell_write_add`, `cell_fill_add`) and nowhere else
(`cell_write_of_ne`, `cell_fill_of_ne`).
-/

namespace TextConsole.VideoMemory

/-! ## Addresses -/

/-- Two offsets below the capacity lead to different words. -/
theorem offset_inj {n a i j : Nat} (hi : i < n) (hj : j < n)
    (h : (a + i) % n = (a + j) % n) : i = j :=
  (Nat.ModEq.add_left_cancel' a h).eq_of_lt_of_lt hi hj

theorem cell_congr {m : VideoMemory} {a b : Nat}
    (h : a % m.capacity = b % m.capacity) : m.cell a = m.cell b := by
  rw [cell, cell, h]

/-- How far the word of one address lies ahead of that of another, going around the
end of memory. -/
def ahead (capacity a b : Nat) : Nat := (b + (capacity - a % capacity)) % capacity

theorem add_ahead {n : Nat} (hpos : 0 < n) (a b : Nat) : (a + ahead n a b) % n = b % n := by
  have hlt := Nat.mod_lt a hpos
  have hsum : a + (b + (n - a % n)) = b + (a / n + 1) * n := by
    have := Nat.div_add_mod' a n
    rw [Nat.succ_mul]
    omega
  rw [ahead, Nat.add_mod_mod, hsum, Nat.add_mul_mod_self_right]

/-- Only one offset below the capacity leads there. -/
theorem ahead_eq {n a b i : Nat} (hi : i < n) (h : (a + i) % n = b % n) : ahead n a b = i :=
  offset_inj (Nat.mod_lt _ (Nat.zero_lt_of_lt hi)) hi
    ((add_ahead (Nat.zero_lt_of_lt hi) a b).trans h.symm)

/-! ## Storing around the end -/

/-- A store leaves the words alone that its run does not reach. -/
theorem getD_storeAround_of_ne {run : List Cell} {cells : Array Cell} {dest j : Nat}
    (h : ∀ i < run.length, (dest + i) % cells.size ≠ j) :
    (storeAround cells dest run).getD j default = cells.getD j default := by
  induction run generalizing cells dest with
  | nil => rfl
  | cons c run ih =>
      have hne : dest % cells.size ≠ j := by simpa using h 0 (by simp)
      rw [storeAround, ih]
      · simp [hne]
      · intro i hi
        have := h (i + 1) (by simpa using hi)
        rw [Array.size_setIfInBounds]
        rwa [Nat.add_assoc, Nat.add_comm 1 i]

/-- What is stored last stays: the cells behind it in a run do not come back to its word. -/
theorem getD_storeAround_last {run : List Cell} {cells : Array Cell} {dest i : Nat}
    (hpos : 0 < cells.size) (hi : i < run.length)
    (hlast : ∀ j < run.length, (dest + j) % cells.size = (dest + i) % cells.size → j ≤ i) :
    (storeAround cells dest run).getD ((dest + i) % cells.size) default = run[i] := by
  induction run generalizing cells dest i with
  | nil => simp at hi
  | cons c run ih =>
      rw [storeAround]
      cases i with
      | zero =>
          rw [getD_storeAround_of_ne]
          · simp [Nat.mod_lt _ hpos]
          · intro k hk heq
            rw [Array.size_setIfInBounds, Nat.add_assoc, Nat.add_comm 1 k] at heq
            have := hlast (k + 1) (by simpa using hk) heq
            omega
      | succ i =>
          have := @ih (cells.setIfInBounds (dest % cells.size) c) (dest + 1) i (by simpa using hpos)
            (by simpa using hi) (by
              intro j hj heq
              rw [Array.size_setIfInBounds, Nat.add_assoc, Nat.add_assoc, Nat.add_comm 1 j,
                Nat.add_comm 1 i] at heq
              have := hlast (j + 1) (by simpa using hj) heq
              omega)
          rw [Array.size_setIfInBounds, Nat.add_assoc, Nat.add_comm 1 i] at this
          simpa using this

/-- A run no longer than the memory is found where it was stored. -/
theorem getD_storeAround_add {run : List Cell} {cells : Array Cell} {dest i : Nat}
    (hlen : run.length ≤ cells.size) (hi : i < run.length) :
    (storeAround cells dest run).getD ((dest + i) % cells.size) default = run[i] := by
  refine getD_storeAround_last (by omega) hi ?_
  intro j hj heq
  have := offset_inj (a := dest) (by omega) (by omega) heq
  omega

/-- Where no address passes the end, nothing is taken modulo the size. -/
theorem storeAround_eq_storeAt {run : List Cell} {cells : Array Cell} {dest : Nat}
    (h : dest + run.length ≤ cells.size) :
    storeAround cells dest run = storeAt cells dest run := by
  induction run generalizing cells dest with
  | nil => rfl
  | cons c run ih =>
      simp only [List.length_cons] at h
      rw [storeAround, storeAt, Nat.mod_eq_of_lt (by omega), ih]
      simp only [Array.size_setIfInBounds]
      omega

/-- A run is stored like its parts one after the other. -/
theorem storeAround_append (cells : Array Cell) (dest : Nat) (xs ys : List Cell) :
    storeAround cells dest (xs ++ ys) =
      storeAround (storeAround cells dest xs) (dest + xs.length) ys := by
  induction xs generalizing cells dest with
  | nil => rfl
  | cons x xs ih =>
      rw [List.cons_append, storeAround, ih, storeAround, List.length_cons, Nat.add_assoc,
        Nat.add_comm 1]

/-! ## Stores -/

/-- A store that fits is the same on both sorts of memory. -/
theorem write_eq {m : VideoMemory} {dest : Nat} {run : List Cell}
    (h : m.Fits dest run.length) :
    m.write dest run = { m with cells := storeAround m.cells dest run } := by
  unfold write
  split
  · rfl
  · rename_i hw
    have hle : dest + run.length ≤ m.capacity := h.resolve_left hw
    rw [if_pos hle, storeAround_eq_storeAt hle]

/-- A run that fits may be stored in two parts. -/
theorem write_append {m : VideoMemory} {dest : Nat} {xs ys : List Cell}
    (h : m.Fits dest (xs ++ ys).length) :
    m.write dest (xs ++ ys) = (m.write dest xs).write (dest + xs.length) ys := by
  have hfirst : m.Fits dest xs.length :=
    h.imp_right fun hle => by rw [List.length_append] at hle; omega
  have hsecond : (m.write dest xs).Fits (dest + xs.length) ys.length := by
    rw [Fits, wraps_write, capacity_write]
    exact h.imp_right fun hle => by rw [List.length_append] at hle; omega
  rw [write_eq h, write_eq hsecond, write_eq hfirst, storeAround_append]

/-- A store that does not fit is ignored. -/
theorem write_of_not_fits {m : VideoMemory} {dest : Nat} {run : List Cell}
    (h : ¬ m.Fits dest run.length) : m.write dest run = m := by
  unfold write
  rw [Fits, not_or] at h
  rw [if_neg h.1, if_neg h.2]

theorem cell_write_add {m : VideoMemory} {dest i : Nat} {run : List Cell}
    (h : m.Fits dest run.length) (hlen : run.length ≤ m.capacity) (hi : i < run.length) :
    (m.write dest run).cell (dest + i) = run[i] := by
  rw [cell, capacity_write, write_eq h]
  exact getD_storeAround_add hlen hi

theorem cell_write_of_ne {m : VideoMemory} {dest a : Nat} {run : List Cell}
    (h : ∀ i < run.length, (dest + i) % m.capacity ≠ a % m.capacity) :
    (m.write dest run).cell a = m.cell a := by
  by_cases hf : m.Fits dest run.length
  · rw [cell, capacity_write, write_eq hf]
    exact getD_storeAround_of_ne h
  · rw [write_of_not_fits hf]

/-- **A store, cell by cell**, at addresses of any size. -/
theorem cell_write_eq {m : VideoMemory} {dest : Nat} {run : List Cell}
    (h : m.Fits dest run.length) (hlen : run.length ≤ m.capacity) (a : Nat) :
    (m.write dest run).cell a =
      if ahead m.capacity dest a < run.length then run.getD (ahead m.capacity dest a) default
      else m.cell a := by
  split
  · rename_i hlt
    have hahead := add_ahead (n := m.capacity) (by omega) dest a
    have hcell := cell_write_add h hlen hlt
    rw [cell_congr (a := a) (b := dest + ahead m.capacity dest a)
      (by rw [capacity_write]; exact hahead.symm), hcell]
    simp [hlt]
  · rename_i hge
    apply cell_write_of_ne
    intro i hi heq
    rw [ahead_eq (by omega) heq] at hge
    exact hge hi

theorem cell_fill_add {m : VideoMemory} {dest len i : Nat}
    (h : m.Fits dest len) (hlen : len ≤ m.capacity) (hi : i < len) :
    (m.fill dest len).cell (dest + i) = m.blankCell := by
  rw [fill, cell_write_add (by simpa using h) (by simpa using hlen) (by simpa using hi)]
  simp

theorem cell_fill_of_ne {m : VideoMemory} {dest len a : Nat}
    (h : ∀ i < len, (dest + i) % m.capacity ≠ a % m.capacity) :
    (m.fill dest len).cell a = m.cell a :=
  cell_write_of_ne (by simpa using h)

/-! ## Reads -/

/-- A read that fits gives the cells one by one. -/
theorem read_eq {m : VideoMemory} {addr len : Nat} (h : m.Fits addr len) :
    m.read addr len = (List.range len).map fun i => m.cell (addr + i) := by
  unfold read
  split
  · rfl
  · rename_i hw
    have hle : addr + len ≤ m.cells.size := h.resolve_left hw
    apply List.ext_getElem
    · simp; omega
    · intro i hi _
      have hlt : addr + i < m.cells.size := by simp at hi; omega
      simp [cell, capacity, Nat.mod_eq_of_lt hlt, hlt]

theorem length_read {m : VideoMemory} {addr len : Nat} (h : m.Fits addr len) :
    (m.read addr len).length = len := by
  rw [read_eq h]
  simp

/-! ## Moves -/

theorem getD_moveAscending {cells : Array Cell} {src dest len : Nat} (j : Nat)
    (h : dest ≤ src) (hsrc : src + len ≤ cells.size) :
    (moveAscending cells src dest len).getD j default =
      if dest ≤ j ∧ j < dest + len then cells.getD (src + (j - dest)) default
      else cells.getD j default := by
  induction len generalizing cells src dest with
  | zero =>
      rw [moveAscending, if_neg (by omega)]
  | succ len ih =>
      rw [moveAscending, ih (by omega) (by simp; omega)]
      by_cases hj : j = dest
      · subst hj
        rw [if_neg (by omega), if_pos (by omega)]
        simp [show j < cells.size by omega]
      · by_cases hin : dest ≤ j ∧ j < dest + (len + 1)
        · rw [if_pos (by omega), if_pos hin,
            show src + 1 + (j - (dest + 1)) = src + (j - dest) by omega]
          simp [show dest ≠ src + (j - dest) by omega]
        · rw [if_neg (by omega), if_neg hin]
          simp [Ne.symm hj]

theorem getD_moveDescending {cells : Array Cell} {src dest len : Nat} (j : Nat)
    (h : src < dest) (hdest : dest + len ≤ cells.size) :
    (moveDescending cells src dest len).getD j default =
      if dest ≤ j ∧ j < dest + len then cells.getD (src + (j - dest)) default
      else cells.getD j default := by
  induction len generalizing cells with
  | zero =>
      rw [moveDescending, if_neg (by omega)]
  | succ len ih =>
      rw [moveDescending, ih (by simp; omega)]
      by_cases hj : j = dest + len
      · subst hj
        rw [if_neg (by omega), if_pos (by omega),
          show src + (dest + len - dest) = src + len by omega]
        simp [show dest + len < cells.size by omega]
      · by_cases hin : dest ≤ j ∧ j < dest + (len + 1)
        · rw [if_pos (by omega), if_pos hin]
          simp [show dest + len ≠ src + (j - dest) by omega]
        · rw [if_neg (by omega), if_neg hin]
          simp [Ne.symm hj]

/-- A move in place gives each cell of the destination what the source held at
the start, since it begins with the end that it overwrites last. -/
theorem getD_move {cells : Array Cell} {src dest len : Nat} (j : Nat)
    (hsrc : src + len ≤ cells.size) (hdest : dest + len ≤ cells.size) :
    (if dest ≤ src then moveAscending cells src dest len
      else moveDescending cells src dest len).getD j default =
      if dest ≤ j ∧ j < dest + len then cells.getD (src + (j - dest)) default
      else cells.getD j default := by
  by_cases h : dest ≤ src
  · rw [if_pos h]
    exact getD_moveAscending j h hsrc
  · rw [if_neg h]
    exact getD_moveDescending j (by omega) hdest

/-- A move within linear memory is a store of the cells that it started from. -/
theorem move_eq_storeAt {cells : Array Cell} {src dest len : Nat}
    (hsrc : src + len ≤ cells.size) (hdest : dest + len ≤ cells.size) :
    (if dest ≤ src then moveAscending cells src dest len
      else moveDescending cells src dest len) =
      storeAt cells dest (cells.extract src (src + len)).toList := by
  have hlen : (cells.extract src (src + len)).toList.length = len := by simp; omega
  apply Array.ext
  · split <;> simp
  · intro j hj hj'
    have hlt : j < cells.size := by simpa using hj'
    have hgetD : ∀ xs : Array Cell, ∀ hx : j < xs.size, xs[j] = xs.getD j default := by
      intro xs hx
      simp [hx]
    rw [hgetD, hgetD, getD_move j hsrc hdest, ← storeAround_eq_storeAt (by omega)]
    by_cases hin : dest ≤ j ∧ j < dest + len
    · obtain ⟨i, rfl⟩ := Nat.exists_eq_add_of_le hin.1
      have hstore := @getD_storeAround_add (cells.extract src (src + len)).toList cells dest i
        (by omega) (by omega)
      rw [Nat.mod_eq_of_lt hlt] at hstore
      rw [if_pos hin, hstore, Nat.add_sub_cancel_left]
      simp [show src + i < cells.size by omega]
    · rw [if_neg hin, getD_storeAround_of_ne]
      intro i hi heq
      rw [Nat.mod_eq_of_lt (by omega)] at heq
      omega

/-- A move between two places that fit stores at the one what was read from the
other, on both sorts of memory. -/
theorem copy_eq_write {m : VideoMemory} {src dest len : Nat}
    (hsrc : m.Fits src len) (hdest : m.Fits dest len) :
    m.copy src dest len = m.write dest (m.read src len) := by
  have hlen := length_read hsrc
  unfold copy
  split
  · rename_i hzero
    subst hzero
    rw [List.length_eq_zero_iff.mp hlen, write_eq (by simpa using hdest)]
    rfl
  · split
    · rfl
    · rename_i hw
      have hs : src + len ≤ m.capacity := hsrc.resolve_left hw
      have hd : dest + len ≤ m.capacity := hdest.resolve_left hw
      rw [if_pos ⟨hs, hd⟩, move_eq_storeAt hs hd, write, if_neg hw, if_pos (by omega), read,
        if_neg hw]

theorem cell_copy_add {m : VideoMemory} {src dest len i : Nat}
    (hsrc : m.Fits src len) (hdest : m.Fits dest len) (hlen : len ≤ m.capacity) (hi : i < len) :
    (m.copy src dest len).cell (dest + i) = m.cell (src + i) := by
  have hread := length_read hsrc
  rw [copy_eq_write hsrc hdest, cell_write_add (by rwa [hread]) (by omega) (by omega)]
  simp [read_eq hsrc]

/-- A move changes no word that it does not move to. -/
theorem cell_copy_of_ne {m : VideoMemory} {src dest len a : Nat}
    (hsrc : m.Fits src len) (hdest : m.Fits dest len)
    (h : ∀ i < len, (dest + i) % m.capacity ≠ a % m.capacity) :
    (m.copy src dest len).cell a = m.cell a := by
  rw [copy_eq_write hsrc hdest]
  exact cell_write_of_ne (by rwa [length_read hsrc])

end TextConsole.VideoMemory
