import Mathlib.Data.Nat.Bitwise
import TextConsole.Proofs.Machine.Console

/-!
# Numbers that stay in range

Where no number leaves its range, a computation on machine words goes through, with the
effects and the result that it has on numbers of any size. `Output.checked` is a computation
that has gone through, and `Checked.checked_bind` puts two of them together. The operations on
words are then those on numbers: a small size is its own signed word, a sum that saturates
is cut off at the edge of the screen in any case, and clearing the low bits of a column goes
back to a tab stop.
-/

namespace TextConsole

open Output

/-! ## Computations that go through -/

/-- A computation of a console as one that has gone through on machine words. -/
def Output.checked (x : Output Console) : Checked RawConsole := some ⟨x.value.raw, x.effects⟩

namespace Checked

variable {α β : Type}

instance : LawfulMonad Checked :=
  LawfulMonad.mk' _
    (fun x => by
      cases x with
      | none => rfl
      | some out => exact congrArg some (by ext1 <;> simp))
    (fun a f => by
      show andThen (some (pure a)) f = f a
      cases h : f a with
      | none =>
          simp only [andThen, value_pure, h]
          rfl
      | some out =>
          simp only [andThen, value_pure, effects_pure, Array.empty_append, h]
          rfl)
    (fun x f g => by
      show andThen (andThen x f) g = andThen x fun a => andThen (f a) g
      cases x with
      | none => rfl
      | some out =>
          cases hf : f out.value with
          | none =>
              simp only [andThen, hf]
              rfl
          | some rest =>
              cases hg : g rest.value with
              | none =>
                  simp only [andThen, hf, hg]
                  rfl
              | some last =>
                  simp only [andThen, hf, hg, Array.append_assoc]
                  rfl)

/-- What goes through one part at a time goes through. -/
theorem checked_bind {x : Output Console} {f : Console → Output Console}
    {g : RawConsole → Checked RawConsole} (h : g x.value.raw = (f x.value).checked) :
    x.checked >>= g = (x >>= f).checked := by
  show andThen (some ⟨x.value.raw, x.effects⟩) g = _
  simp only [andThen, h, checked]
  rfl

/-- What goes through as far as a part that stops has stopped. -/
theorem checked_bind_of_stop {x : Output Console} {g : RawConsole → Checked RawConsole}
    (h : g x.value.raw = stop) : x.checked >>= g = stop := by
  show andThen (some ⟨x.value.raw, x.effects⟩) g = _
  simp only [andThen, h]
  rfl

/-- A computation in two parts has a result exactly if both parts have. -/
theorem bind_eq_some_iff {x : Checked α} {f : α → Checked β} {out : Output β} :
    x >>= f = some out ↔
      ∃ a b, x = some a ∧ f a.value = some b ∧ out = ⟨b.value, a.effects ++ b.effects⟩ := by
  constructor
  · intro h
    cases x with
    | none => cases h
    | some a =>
        have h : andThen (some a) f = some out := h
        cases hf : f a.value with
        | none =>
            simp only [andThen, hf] at h
            cases h
        | some b =>
            simp only [andThen, hf] at h
            exact ⟨a, b, rfl, hf, (Option.some.inj h).symm⟩
  · rintro ⟨a, b, rfl, hb, rfl⟩
    show andThen (some a) f = _
    simp only [andThen, hb]
    rfl

theorem pure_raw (c : Console) :
    (pure c.raw : Checked RawConsole) = (pure c : Output Console).checked := rfl

/-! ## Checks that pass -/

theorem add_of_lt {a b : Nat} (h : a + b < 0x10000000000000000) : add a b = pure (a + b) := if_pos h

theorem mul_of_lt {a b : Nat} (h : a * b < 0x10000000000000000) : mul a b = pure (a * b) := if_pos h

theorem sub_of_le {a b : Nat} (h : b ≤ a) : sub a b = pure (a - b) := if_pos h

theorem addInt_of_inRange {x y : Int} (h : InRange (x + y)) : addInt x y = pure (x + y) :=
  if_pos h

theorem subInt_of_inRange {x y : Int} (h : InRange (x - y)) : subInt x y = pure (x - y) :=
  if_pos h

theorem clamp_of_le {x low high : Int} (h : low ≤ high) :
    clamp x low high = pure (max low (min x high)) := if_pos h

end Checked

/-! ## Words -/

theorem signedWord_of_lt {n : Nat} (h : n < 0x80000000) : signedWord n = n := by
  unfold signedWord
  rw [Int.bmod_eq_of_le] <;> omega

theorem unsignedWord_natCast {n : Nat} (h : n < 0x10000000000000000) :
    unsignedWord (n : Int) = n := by
  unfold unsignedWord
  rw [← Int.natCast_mod, Int.toNat_natCast]
  exact Nat.mod_eq_of_lt h

/-- Clearing the low bits of a number goes back to a multiple of a power of two. -/
theorem clearBits_low {x k : Nat} (hx : x < 0x80000000) :
    clearBits x ((2 ^ k : Nat) - 1) = (x / 2 ^ k * 2 ^ k : Nat) := by
  have hlow : ((2 ^ k : Nat) - 1 : Int) = ((2 ^ k - 1 : Nat) : Int) := by
    have hpos := Nat.two_pow_pos k
    omega
  have hbits : BitVec.ofNat 32 x &&& ~~~ BitVec.ofNat 32 (2 ^ k - 1) =
      BitVec.ofNat 32 (x / 2 ^ k * 2 ^ k) := by
    ext i hi
    rw [BitVec.getElem_and, BitVec.getElem_not]
    simp only [← BitVec.getLsbD_eq_getElem, BitVec.getLsbD_ofNat, hi, decide_true, Bool.true_and,
      Nat.testBit_two_pow_sub_one, Nat.testBit_mul_two_pow, Nat.testBit_div_two_pow]
    by_cases hik : i < k
    · simp [hik, Nat.not_le.mpr hik]
    · have hki : k ≤ i := Nat.le_of_not_lt hik
      simp [hik, hki]
  have hle : x / 2 ^ k * 2 ^ k ≤ x := Nat.div_mul_le_self x (2 ^ k)
  unfold clearBits
  rw [hlow, BitVec.ofInt_natCast, BitVec.ofInt_natCast, hbits, BitVec.toInt_ofNat']
  exact Int.bmod_eq_of_le (by omega) (by omega)

/-- Clearing all the bits leaves nothing. -/
theorem clearBits_neg_one (x : Int) : clearBits x (-1) = 0 := by
  unfold clearBits
  rw [show ~~~ BitVec.ofInt 32 (-1) = 0#32 by decide, BitVec.and_zero]
  rfl

/-- Half of all the signed words is the sign alone: one less is every other bit, and clearing
them leaves the sign. -/
theorem clearBits_half {x : Nat} (hx : x < 0x80000000) :
    clearBits ((x : Int) + -0x80000000) (-0x80000000 - 1) = -0x80000000 := by
  have hword : BitVec.ofInt 32 ((x : Int) + -0x80000000) = BitVec.ofNat 32 (x + 2 ^ 31) := by
    apply BitVec.eq_of_toInt_eq
    rw [BitVec.toInt_ofInt, BitVec.toInt_ofNat', Int.bmod_def, Int.bmod_def]
    omega
  have hbit : (x + 2 ^ 31).testBit 31 = true := by
    rw [Nat.add_comm, Nat.testBit_two_pow_add_eq, Nat.testBit_lt_two_pow hx]
    rfl
  have hsign : BitVec.ofNat 32 (x + 2 ^ 31) &&& BitVec.ofNat 32 (2 ^ 31) =
      BitVec.ofNat 32 (2 ^ 31) := by
    apply BitVec.eq_of_toNat_eq
    rw [BitVec.toNat_and, BitVec.toNat_ofNat, BitVec.toNat_ofNat, Nat.mod_eq_of_lt (by omega),
      Nat.mod_eq_of_lt (by omega), Nat.and_two_pow, hbit, Bool.toNat_true, Nat.one_mul]
  unfold clearBits
  rw [hword, show ~~~ BitVec.ofInt 32 (-0x80000000 - 1) = BitVec.ofNat 32 (2 ^ 31) by decide, hsign]
  rfl

/-! ## Saturation -/

/-- A sum that saturates is cut off at the same edge of the screen as the sum itself. -/
theorem cut_add_saturated {x e : Int} (hx : 0 ≤ x) (he : e ≤ 0x10000) (n : Nat) :
    (min (saturated (x + signedCount n)) e).toNat = (min (x + n) e).toNat := by
  unfold saturated signedCount
  omega

theorem cut_sub_saturated {x e : Int} (hx : 0 ≤ x) (hle : x ≤ 0x10000) (n : Nat) :
    (min (saturated (x - signedCount n)) e).toNat = (min (x - n) e).toNat := by
  unfold saturated signedCount
  omega

/-- A count as a position that is counted from one. -/
theorem cut_position {e : Int} (he : e ≤ 0x10000) (n : Nat) :
    Checked.InRange (signedCount n - 1) ∧
      (min (signedCount n - 1) e).toNat = (min ((n : Int) - 1) e).toNat := by
  unfold signedCount
  refine ⟨?_, by omega⟩
  constructor <;> omega

end TextConsole
