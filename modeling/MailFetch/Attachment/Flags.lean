/-! # Attachment flags

A record carries a word of 32 flag bits. Three of them matter here: `forward` and `requested` ask
for a download, and `barred` forbids one. The other bits belong to others and are only carried
along.

* `Flags.getLsbD_without`: taking flags away clears their bits and no other.
* `Flags.intersects_iff`: two words meet exactly where some bit is set in both. -/

namespace MailFetch

/-- **The flag word of a record.** -/
structure Flags where
  bits : BitVec 32
deriving DecidableEq, Inhabited

namespace Flags

/-- No flag. -/
def none : Flags := ⟨0⟩

/-- The attachment is needed to send a forwarded message. -/
def forward : Flags := ⟨2⟩

/-- A user asked for the attachment. -/
def requested : Flags := ⟨4⟩

/-- The account's policy forbids the download. -/
def barred : Flags := ⟨512⟩

/-- All flags of either word. -/
def union (a b : Flags) : Flags := ⟨a.bits ||| b.bits⟩

/-- The flags that mark a record as waiting for its download. -/
def pending : Flags := forward.union requested

/-- Whether all flags of `b` are set in `a`. -/
def contains (a b : Flags) : Bool := a.bits &&& b.bits == b.bits

/-- Whether some flag is set in both words. -/
def intersects (a b : Flags) : Bool := a.bits &&& b.bits != 0

/-- The flags of `a` that are not in `b`. -/
def without (a b : Flags) : Flags := ⟨a.bits &&& ~~~b.bits⟩

/-- Whether no flag is set. -/
def isEmpty (a : Flags) : Bool := a.bits == 0

/-- The flag word with the given value. -/
def ofNat (n : Nat) : Flags := ⟨BitVec.ofNat 32 n⟩

/-- The value of the flag word. -/
def toNat (a : Flags) : Nat := a.bits.toNat

@[simp] theorem ofNat_toNat (a : Flags) : ofNat a.toNat = a := by
  simp [ofNat, toNat]

theorem getLsbD_without (a b : Flags) {i : Nat} (h : i < 32) :
    (a.without b).bits.getLsbD i = (a.bits.getLsbD i && !b.bits.getLsbD i) := by
  simp [without, h]

theorem intersects_iff (a b : Flags) :
    a.intersects b = true ↔ ∃ i, a.bits.getLsbD i = true ∧ b.bits.getLsbD i = true := by
  simp only [intersects, bne_iff_ne, ne_eq]
  constructor
  · intro h
    false_or_by_contra
    rename_i hn
    refine h (BitVec.eq_of_getLsbD_eq fun i hi => ?_)
    rw [BitVec.getLsbD_and, show (0 : BitVec 32) = 0#32 from rfl, BitVec.getLsbD_zero]
    cases ha : a.bits.getLsbD i
    · rfl
    · cases hb : b.bits.getLsbD i
      · rfl
      · exact absurd ⟨i, ha, hb⟩ hn
  · rintro ⟨i, ha, hb⟩ h
    have := congrArg (·.getLsbD i) h
    simp [ha, hb] at this

end Flags

end MailFetch
