import TextConsole.Console.Pen
import Mathlib.Tactic.IntervalCases

/-!
# Renditions leave characters alone

A rendition that a console makes has nothing in its low byte (`Rendition.IsProper`), where
a cell has its character code. Such a cell comes apart again into the code and the rendition
that it was made of (`Cell.code_ofCode`, `Cell.rendition_ofCode`), and every change of the
pen, on either kind of display, makes another such rendition (`RenditionChange.isProper_pen`).

Renditions are compared bit by bit. The operations on nibbles are described by the bits that
they replace.
-/

namespace TextConsole

namespace Rendition

variable {r s : Rendition}

/-- Whether the byte of the character code is free. -/
def IsProper (r : Rendition) : Prop := r.bits &&& 0x00FF = 0

instance (r : Rendition) : Decidable r.IsProper := inferInstanceAs (Decidable (_ = _))

/-! ## Bits -/

def bit (r : Rendition) (i : Nat) : Bool := r.bits.toBitVec.getLsbD i

theorem ext_bit (h : ∀ i < 16, r.bit i = s.bit i) : r = s := by
  obtain ⟨bits⟩ := r
  obtain ⟨bits'⟩ := s
  have hbits : bits = bits' := UInt16.eq_of_toBitVec_eq (BitVec.eq_of_getLsbD_eq h)
  rw [hbits]

@[simp] theorem bit_or (i : Nat) : (r ||| s).bit i = (r.bit i || s.bit i) := by
  rw [bit, or_bits, UInt16.toBitVec_or, BitVec.getLsbD_or]
  rfl

@[simp] theorem bit_and (i : Nat) : (r &&& s).bit i = (r.bit i && s.bit i) := by
  rw [bit, and_bits, UInt16.toBitVec_and, BitVec.getLsbD_and]
  rfl

/-- The foreground is in bits 8 to 11. -/
theorem bit_withForeground {i : Nat} (hi : i < 16) (n : UInt8) :
    (r.withForeground n).bit i =
      if 8 ≤ i ∧ i < 12 then n.toBitVec.getLsbD (i - 8) else r.bit i := by
  unfold bit withForeground foregroundMask
  interval_cases i <;> simp

/-- The background is in bits 12 to 15. -/
theorem bit_withBackground {i : Nat} (hi : i < 16) (n : UInt8) :
    (r.withBackground n).bit i = if 12 ≤ i then n.toBitVec.getLsbD (i - 12) else r.bit i := by
  unfold bit withBackground backgroundMask
  interval_cases i <;> simp

/-! ## Nibbles -/

theorem withForeground_withForeground (m n : UInt8) :
    (r.withForeground m).withForeground n = r.withForeground n := by
  apply ext_bit
  intro i hi
  rw [bit_withForeground hi, bit_withForeground hi, bit_withForeground hi]
  split <;> rfl

theorem withBackground_withBackground (m n : UInt8) :
    (r.withBackground m).withBackground n = r.withBackground n := by
  apply ext_bit
  intro i hi
  rw [bit_withBackground hi, bit_withBackground hi, bit_withBackground hi]
  split <;> rfl

/-- The two colours are replaced independently. -/
theorem withForeground_withBackground (m n : UInt8) :
    (r.withBackground m).withForeground n = (r.withForeground n).withBackground m := by
  apply ext_bit
  intro i hi
  rw [bit_withForeground hi, bit_withBackground hi, bit_withBackground hi, bit_withForeground hi]
  split
  · rw [if_neg (by omega)]
  · rfl

/-! ## Proper renditions -/

theorem isProper_iff : r.IsProper ↔ ∀ i < 8, r.bit i = false := by
  unfold IsProper bit
  constructor
  · intro h i hi
    have hbit := congrArg (fun word : UInt16 => word.toBitVec.getLsbD i) h
    rw [UInt16.toBitVec_and, BitVec.getLsbD_and] at hbit
    interval_cases i <;> simpa using hbit
  · intro h
    apply UInt16.eq_of_toBitVec_eq
    apply BitVec.eq_of_getLsbD_eq
    intro i hi
    rw [UInt16.toBitVec_and, BitVec.getLsbD_and]
    by_cases hlow : i < 8
    · rw [h i hlow]
      simp
    · interval_cases i <;> simp

theorem isProper_normal : normal.IsProper := rfl

namespace IsProper

theorem or (h : r.IsProper) (hs : s.IsProper) : (r ||| s).IsProper := by
  rw [isProper_iff] at *
  intro i hi
  rw [bit_or, h i hi, hs i hi]
  rfl

theorem and (h : r.IsProper) : (r &&& s).IsProper := by
  rw [isProper_iff] at *
  intro i hi
  rw [bit_and, h i hi]
  rfl

theorem withForeground (h : r.IsProper) (n : UInt8) : (r.withForeground n).IsProper := by
  rw [isProper_iff] at *
  intro i hi
  rw [bit_withForeground (by omega), if_neg (by omega), h i hi]

theorem withBackground (h : r.IsProper) (n : UInt8) : (r.withBackground n).IsProper := by
  rw [isProper_iff] at *
  intro i hi
  rw [bit_withBackground (by omega), if_neg (by omega), h i hi]

end IsProper

theorem isProper_swapped (r : Rendition) : r.swapped.IsProper := by
  rw [isProper_iff]
  unfold bit swapped backgroundMask foregroundMask
  intro i hi
  interval_cases i <;> simp

theorem IsProper.reversedMono (h : r.IsProper) : r.reversedMono.IsProper := by
  refine h.and.or ?_
  split <;> rfl

end Rendition

/-- **Every change of the pen makes a proper rendition** of proper ones. -/
theorem RenditionChange.isProper_pen {blank r : Rendition} (kind : DisplayKind)
    (hblank : blank.IsProper) (h : r.IsProper) (change : RenditionChange) :
    (change.pen kind blank r).IsProper := by
  cases change with
  | bold =>
      cases kind with
      | color => exact h.withForeground _
      | mono => exact h.or rfl
  | underline =>
      cases kind with
      | color => exact h.withForeground _
      | mono => exact h.and
  | blink =>
      cases kind with
      | color => exact h.withForeground _
      | mono => exact h.or rfl
  | reverse =>
      cases kind with
      | color => exact r.isProper_swapped
      | mono => exact h.reversedMono
  | foreground color => exact h.withForeground _
  | background color => exact h.withBackground _
  | reset => exact hblank

/-- The rendition of blanks remains proper. -/
theorem RenditionChange.isProper_blank {blank : Rendition} (h : blank.IsProper)
    (change : RenditionChange) : ((change.blank? blank).getD blank).IsProper := by
  cases change with
  | foreground color => exact h.withForeground _
  | background color => exact h.withBackground _
  | bold | underline | blink | reverse | reset => exact h

namespace Cell

/-! ## Cells that come apart again -/

theorem code_ofCode {r : Rendition} (h : r.IsProper) (code : UInt8) :
    (ofCode code r).code = code := by
  rw [Rendition.isProper_iff] at h
  apply UInt8.eq_of_toBitVec_eq
  apply BitVec.eq_of_getLsbD_eq
  intro i hi
  have hbit : r.bits.toBitVec.getLsbD i = false := h i hi
  simp [Cell.code, ofCode, hbit, hi]

theorem rendition_ofCode {r : Rendition} (h : r.IsProper) (code : UInt8) :
    (ofCode code r).rendition = r := by
  rw [Rendition.isProper_iff] at h
  apply Rendition.ext_bit
  intro i hi
  by_cases hlow : i < 8
  · rw [h i hlow]
    simp only [Rendition.bit, Cell.rendition, ofCode]
    interval_cases i <;> simp
  · simp only [Rendition.bit, Cell.rendition, ofCode]
    interval_cases i <;> simp

end Cell

end TextConsole
