import MailFetch.Attachment.Basic

/-! # Record updates

An update sets some of the three fields that downloads change: the flags, the phase and the number
of bytes downloaded.

* `Update.finished` clears the two flags that ask for a download and keeps all others.
* `Update.bytesAt_eq`: the bytes at a percentage are what they should be, for every size of 64 bits.
* `Update.progress_le`: a progress report never claims more than the record's size. -/

namespace MailFetch

/-- **A partial update of an attachment record.** -/
structure Update where
  flags : Option Flags := none
  phase : Option Phase := none
  downloadedSize : Option Nat := none
deriving DecidableEq, Inhabited

namespace Update

/-- The end of a download: nothing is asked for any more. -/
def finished (current : Flags) (phase : Phase) : Update :=
  { flags := some (current.without .pending), phase := some phase }

/-- The end of a successful download. -/
def saved (a : Attachment) : Update :=
  { finished a.flags .saved with downloadedSize := some a.size }

/-- Bytes downloaded at a percentage, rounded down. The product is taken in 128 bits, and the result
is cut to the 64 bits of a size. -/
def bytesAt (size percent : Nat) : Nat :=
  ((BitVec.ofNat 128 size * BitVec.ofNat 128 (min percent 100) / 100#128).setWidth 64).toNat

/-- A progress report for a download under way. -/
def progress (size percent : Nat) : Update :=
  { phase := some .downloading, downloadedSize := some (bytesAt size percent) }

/-- The record after an update. -/
def apply (u : Update) (a : Attachment) : Attachment :=
  { a with
    flags := u.flags.getD a.flags
    phase := u.phase.getD a.phase
    downloadedSize := u.downloadedSize.getD a.downloadedSize }

@[simp] theorem apply_id (u : Update) (a : Attachment) : (u.apply a).id = a.id := rfl

/-- **The bytes at a percentage are exact**: of a size of 64 bits neither the product nor the result
loses a bit. -/
theorem bytesAt_eq {size : Nat} (hsize : size < UInt64.size) (percent : Nat) :
    bytesAt size percent = size * min percent 100 / 100 := by
  have hle : size * min percent 100 ≤ size * 100 := Nat.mul_le_mul_left _ (Nat.min_le_right _ _)
  have hlimit : UInt64.size = 18446744073709551616 := rfl
  have hhundred : (100#128).toNat = 100 := rfl
  unfold bytesAt
  rw [← BitVec.ofNat_mul, BitVec.toNat_setWidth, BitVec.toNat_udiv, BitVec.toNat_ofNat, hhundred]
  generalize size * min percent 100 = product at hle ⊢
  omega

/-- No fewer bytes are downloaded at a greater percentage. -/
theorem bytesAt_mono {size p q : Nat} (hsize : size < UInt64.size) (h : p ≤ q) :
    bytesAt size p ≤ bytesAt size q := by
  rw [bytesAt_eq hsize, bytesAt_eq hsize]
  have hpercent : min p 100 ≤ min q 100 := by omega
  exact Nat.div_le_div_right (Nat.mul_le_mul_left size hpercent)

theorem bytesAt_of_le {size percent : Nat} (hsize : size < UInt64.size) (h : 100 ≤ percent) :
    bytesAt size percent = size := by
  rw [bytesAt_eq hsize, Nat.min_eq_right h]
  omega

theorem progress_le (size percent : Nat) : bytesAt size percent ≤ size := by
  by_cases hsize : size < UInt64.size
  · rw [bytesAt_eq hsize]
    have hle : size * min percent 100 ≤ size * 100 := Nat.mul_le_mul_left _ (Nat.min_le_right _ _)
    omega
  · -- No result has more than 64 bits.
    have hlt : bytesAt size percent < UInt64.size := BitVec.isLt _
    omega

end Update

end MailFetch
