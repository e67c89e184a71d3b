import BestKernel.Kontrol.Hash
import BestKernel.Library.Counting
import Mathlib.Data.Nat.Find

/-!
# Sections of a pool

What `alloc` should hand out and what `free` should take back.  A section is a run
of slots: `alloc` should return the lowest free run of the length asked for, or the
tail that a pool of pointers grows by (`Hash.FirstFit`), and `free` should clear the
marks and the bytes of exactly one section (`Hash.FreesExactly`), so that the two
undo each other (`Hash.RoundTrip`).

The loop of `alloc` finds the right run, `Hash.allocLoop_spec`, but returns its last
slot, and counts eight bytes to a slot.  The memory that `free` clears is filled by a
loop with a 32-bit counter, so a section of 2^32 bytes or more is never done.
-/

namespace BestKernel
namespace Kontrol

open Machine

namespace Hash

/-- The address of a slot. -/
def slotAddress (h : Hash) (i : Nat) : Word :=
  h.pool + h.stride * BitVec.ofNat 64 i

/-- The slots `start` to `start + n - 1` are free. -/
def FreeSlots (ckarray : Nat → Byte) (start n : Nat) : Prop :=
  ∀ i, start ≤ i → i < start + n → ckarray i = 0

/-- They are free and in the pool. -/
def FreeRun (h : Hash) (reqlen start : Nat) : Prop :=
  start + reqlen ≤ h.length.toNat ∧ FreeSlots h.ckarray start reqlen

/-- The lowest free run. -/
def LowestRun (h : Hash) (reqlen start : Nat) : Prop :=
  h.FreeRun reqlen start ∧ ∀ other, h.FreeRun reqlen other → start ≤ other

/-- The marks and the contents of the slots of `h` are found at the same slots of `h'`. -/
def SameEntries (h : Hash) (mem : ByteMemory) (h' : Hash) (mem' : ByteMemory) : Prop :=
  ∀ i, i < h.length.toNat → h'.ckarray i = h.ckarray i ∧
    ∀ k, k < h.stride.toNat →
      mem' (h'.slotAddress i + BitVec.ofNat 64 k) = mem (h.slotAddress i + BitVec.ofNat 64 k)

/-- The pool can grow: `tryn` is what the pool of pointers answers. -/
def Grows (h : Hash) (tryn : Word) : Prop :=
  h.type = .DOUBLE_POINTER ∧ tryn ≠ 0

instance (h : Hash) (tryn : Word) : Decidable (h.Grows tryn) :=
  inferInstanceAs (Decidable (_ ∧ _))

/-- First fit, with the memory before and behind a growth. -/
structure FirstFit (h : Hash) (mem grown : ByteMemory) (reqlen : Half) (tryn : Word) :
    Prop where
  found : ∀ start, h.LowestRun reqlen.toNat start →
    (h.alloc reqlen tryn).1 = some (h.slotAddress start)
  tail : (∀ start, ¬ h.FreeRun reqlen.toNat start) → h.Grows tryn →
    (h.alloc reqlen tryn).1 = some ((h.alloc reqlen tryn).2.slotAddress h.length.toNat) ∧
      (h.alloc reqlen tryn).2.length = h.length + reqlen ∧
      h.SameEntries mem (h.alloc reqlen tryn).2 grown
  refused : (∀ start, ¬ h.FreeRun reqlen.toNat start) → ¬ h.Grows tryn →
    h.alloc reqlen tryn = (none, h)

section Search

variable {ckarray : Nat → Byte} {reqlen : Half}

/-- The `g` slots below `i` are free, and the one below them is taken or missing. -/
structure Streak (ckarray : Nat → Byte) (i g : Nat) : Prop where
  le : g ≤ i
  free : FreeSlots ckarray (i - g) g
  start : g < i → ckarray (i - g - 1) ≠ 0

theorem Streak.zero : Streak ckarray 0 0 :=
  ⟨Nat.le_refl 0, fun _ _ hi => absurd hi (by omega), fun h => absurd h (by omega)⟩

/-- A free slot makes the streak longer. -/
theorem Streak.succ
    {i g : Nat}
    (h : Streak ckarray i g)
    (hfree : ckarray i = 0) :
    Streak ckarray (i + 1) (g + 1) := by
  obtain ⟨hle, hslots, hstart⟩ := h
  refine ⟨by omega, ?_, ?_⟩
  · intro j hj hj'
    rcases Nat.lt_succ_iff_lt_or_eq.mp (by omega : j < i + 1) with hlt | rfl
    · exact hslots j (by omega) (by omega)
    · exact hfree
  · intro hlt
    have hsame : i + 1 - (g + 1) - 1 = i - g - 1 := by omega
    rw [hsame]
    exact hstart (by omega)

/-- A taken one ends it. -/
theorem Streak.taken
    {i : Nat}
    (htaken : ckarray i ≠ 0) :
    Streak ckarray (i + 1) 0 :=
  ⟨Nat.zero_le _, fun _ _ hj => absurd hj (by omega), fun _ => by simpa using htaken⟩

/-- No run that ends at the slot behind a streak is longer than the streak. -/
theorem Streak.not_longer
    {i g n start : Nat}
    (h : Streak ckarray i g)
    (hslots : FreeSlots ckarray start n)
    (hend : start + n = i) :
    n ≤ g := by
  obtain ⟨hle, _, hstart⟩ := h
  by_contra hlong
  exact hstart (by omega) (hslots _ (by omega) (by omega))

theorem toNat_add_one
    {g : Half}
    (hg : g.toNat < reqlen.toNat) :
    (g + 1).toNat = g.toNat + 1 := by
  have hlt := reqlen.isLt
  have hone : (1 : Half).toNat = 1 := rfl
  rw [BitVec.toNat_add, hone]
  exact Nat.mod_eq_of_lt (by omega)

/-- What one round of the loop does to the streak. -/
theorem Streak.next
    {i : Nat} {g : Half}
    (h : Streak ckarray i g.toNat)
    (hg : g.toNat < reqlen.toNat) :
    Streak ckarray (i + 1) (if ckarray i = 0 then g + 1 else 0 : Half).toNat ∧
      (if ckarray i = 0 then g + 1 else 0 : Half).toNat ≤ reqlen.toNat := by
  split_ifs with hfree
  · rw [toNat_add_one hg]
    exact ⟨h.succ hfree, hg⟩
  · exact ⟨Streak.taken hfree, Nat.zero_le _⟩

/-- **The loop ends at the last slot of the lowest free run.** -/
theorem allocLoop_spec
    (left i : Nat) (g : Half)
    (hstreak : Streak ckarray i g.toNat)
    (hg : g.toNat < reqlen.toNat) :
    (∀ e, allocLoop ckarray reqlen left i g = some e →
      ∃ start, start + reqlen.toNat = e + 1 ∧ e < i + left ∧
        FreeSlots ckarray start reqlen.toNat ∧
        ∀ other, FreeSlots ckarray other reqlen.toNat → i < other + reqlen.toNat →
          start ≤ other) ∧
    (allocLoop ckarray reqlen left i g = none →
      ∀ other, FreeSlots ckarray other reqlen.toNat → i < other + reqlen.toNat →
        i + left < other + reqlen.toNat) := by
  induction left generalizing i g with
  | zero => simp [allocLoop]
  | succ left ih =>
      obtain ⟨hnext, hle⟩ := hstreak.next hg
      rw [allocLoop]
      generalize (if ckarray i = 0 then g + 1 else 0 : Half) = g' at hnext hle
      by_cases hfull : g' = reqlen
      · rw [if_pos hfull]
        subst hfull
        refine ⟨fun e he => ?_, fun h => by cases h⟩
        cases he
        have hge := hnext.le
        have hslots := hnext.free
        refine ⟨i + 1 - g'.toNat, by omega, by omega, hslots, fun other _ hother => by omega⟩
      · rw [if_neg hfull]
        have hlt : g'.toNat < reqlen.toNat := by
          have hne : g'.toNat ≠ reqlen.toNat := fun h => hfull (BitVec.eq_of_toNat_eq h)
          omega
        obtain ⟨hsome, hnone⟩ := ih (i + 1) g' hnext hlt
        -- no run ends at `i`, the streak being too short
        have hlater : ∀ other, FreeSlots ckarray other reqlen.toNat →
            i < other + reqlen.toNat → i + 1 < other + reqlen.toNat := by
          intro other hother hend
          by_contra hnot
          have hshort := hnext.not_longer hother (by omega)
          omega
        refine ⟨fun e he => ?_, fun h other hother hend => ?_⟩
        · obtain ⟨start, hend, hin, hslots, hlowest⟩ := hsome e he
          exact ⟨start, hend, by omega, hslots,
            fun other hother hother' => hlowest other hother (hlater other hother hother')⟩
        · have hout := hnone h other hother (hlater other hother hend)
          omega

/-- The loop from the first slot on. -/
theorem allocLoop_start
    (ckarray : Nat → Byte) (left : Nat)
    (hreq : 1 ≤ reqlen.toNat) :
    (∀ e, allocLoop ckarray reqlen left 0 0 = some e →
      ∃ start, start + reqlen.toNat = e + 1 ∧ e < 0 + left ∧
        FreeSlots ckarray start reqlen.toNat ∧
        ∀ other, FreeSlots ckarray other reqlen.toNat → 0 < other + reqlen.toNat →
          start ≤ other) ∧
    (allocLoop ckarray reqlen left 0 0 = none →
      ∀ other, FreeSlots ckarray other reqlen.toNat → 0 < other + reqlen.toNat →
        0 + left < other + reqlen.toNat) :=
  allocLoop_spec left 0 0 Streak.zero hreq

end Search

section FirstFit

variable {h : Hash} {mem grown : ByteMemory} {reqlen : Half} {tryn : Word}

theorem exists_lowestRun
    {n : Nat} :
    (∃ start, h.LowestRun n start) ∨ ∀ start, ¬ h.FreeRun n start := by
  classical
  by_cases hrun : ∃ start, h.FreeRun n start
  · exact Or.inl ⟨Nat.find hrun, Nat.find_spec hrun, fun other hother => Nat.find_min' hrun hother⟩
  · exact Or.inr fun start hstart => hrun ⟨start, hstart⟩

theorem allocLoop_found
    {start : Nat}
    (hreq : 1 ≤ reqlen.toNat)
    (hlowest : h.LowestRun reqlen.toNat start) :
    allocLoop h.ckarray reqlen h.length.toNat 0 0 = some (start + reqlen.toNat - 1) := by
  obtain ⟨⟨hin, hslots⟩, hleast⟩ := hlowest
  obtain ⟨hsome, hnone⟩ := allocLoop_start h.ckarray h.length.toNat hreq
  cases hloop : allocLoop h.ckarray reqlen h.length.toNat 0 0 with
  | none =>
      have hout := hnone hloop start hslots (by omega)
      omega
  | some e =>
      obtain ⟨first, hend, hlt, hfirst, hbelow⟩ := hsome e hloop
      have hle := hbelow start hslots (by omega)
      have hge := hleast first ⟨by omega, hfirst⟩
      exact congrArg some (by omega)

theorem allocLoop_missed
    (hreq : 1 ≤ reqlen.toNat)
    (hnone : ∀ start, ¬ h.FreeRun reqlen.toNat start) :
    allocLoop h.ckarray reqlen h.length.toNat 0 0 = none := by
  obtain ⟨hsome, _⟩ := allocLoop_start h.ckarray h.length.toNat hreq
  cases hloop : allocLoop h.ckarray reqlen h.length.toNat 0 0 with
  | none => rfl
  | some e =>
      obtain ⟨start, hend, hlt, hslots, _⟩ := hsome e hloop
      exact absurd ⟨by omega, hslots⟩ (hnone start)

/-- What `alloc` returns is the last slot of the run, at eight bytes a slot. -/
theorem alloc_found
    {start : Nat}
    (hreq : 1 ≤ reqlen.toNat)
    (hlowest : h.LowestRun reqlen.toNat start) :
    h.alloc reqlen tryn =
      (some (h.pool + 8#64 * BitVec.ofNat 64 (start + reqlen.toNat - 1)),
        { h with count := h.count + reqlen }) := by
  rw [alloc, allocLoop_found hreq hlowest]

theorem alloc_missed
    (hreq : 1 ≤ reqlen.toNat)
    (hnone : ∀ start, ¬ h.FreeRun reqlen.toNat start) :
    h.alloc reqlen tryn =
      if h.Grows tryn then
        (none, { h with pool := tryn, length := h.length + reqlen })
      else (none, h) := by
  rw [alloc, allocLoop_missed hreq hnone]
  rfl

/-- **`alloc` is first fit exactly when the last slot of the lowest run lies at the
address of the first, or when there is no run and the pool cannot grow.** -/
theorem alloc_first_fit_iff
    (h : Hash) (mem grown : ByteMemory) (reqlen : Half) (tryn : Word)
    (hreq : 1 ≤ reqlen.toNat) :
    h.FirstFit mem grown reqlen tryn ↔
      (∃ start, h.LowestRun reqlen.toNat start ∧
        8#64 * BitVec.ofNat 64 (start + reqlen.toNat - 1) = h.stride * BitVec.ofNat 64 start) ∨
      ((∀ start, ¬ h.FreeRun reqlen.toNat start) ∧ ¬ h.Grows tryn) := by
  rcases exists_lowestRun (h := h) (n := reqlen.toNat) with ⟨start, hlowest⟩ | hnone
  · have hexists : ¬ ∀ start, ¬ h.FreeRun reqlen.toNat start :=
      fun hnone => hnone start hlowest.1
    have hreturned : (h.alloc reqlen tryn).1 = some (h.slotAddress start) ↔
        8#64 * BitVec.ofNat 64 (start + reqlen.toNat - 1) = h.stride * BitVec.ofNat 64 start := by
      rw [alloc_found hreq hlowest, slotAddress]
      simp
    constructor
    · intro hfit
      exact Or.inl ⟨start, hlowest, hreturned.mp (hfit.found start hlowest)⟩
    · rintro (⟨start', hlowest', haddress⟩ | ⟨hnone, _⟩)
      · have hsame : start' = start :=
          Nat.le_antisymm (hlowest'.2 _ hlowest.1) (hlowest.2 _ hlowest'.1)
        subst hsame
        refine ⟨fun other hother => ?_, fun hnone => absurd hnone hexists,
          fun hnone => absurd hnone hexists⟩
        have hsame : other = start' :=
          Nat.le_antisymm (hother.2 _ hlowest.1) (hlowest.2 _ hother.1)
        subst hsame
        exact hreturned.mpr haddress
      · exact absurd hnone hexists
  · constructor
    · intro hfit
      refine Or.inr ⟨hnone, fun hgrows => ?_⟩
      have htail := (hfit.tail hnone hgrows).1
      rw [alloc_missed hreq hnone, if_pos hgrows] at htail
      cases htail
    · rintro (⟨start, hlowest, _⟩ | ⟨_, hrefused⟩)
      · exact absurd hlowest.1 (hnone start)
      · refine ⟨fun start hlowest => absurd hlowest.1 (hnone start),
          fun _ hgrows => absurd hgrows hrefused, fun _ _ => ?_⟩
        rw [alloc_missed hreq hnone, if_neg hrefused]

/-- Four pointers at 4096, the first one in use. -/
def fourPointers : Hash :=
  ⟨.POINTER, 4, 1, fun i => if i = 0 then 1 else 0, 4096, 8⟩

theorem fourPointers_lowestRun
    {n : Nat}
    (hn : 1 ≤ n)
    (hroom : n ≤ 3) :
    fourPointers.LowestRun n 1 := by
  refine ⟨⟨?_, fun i hi _ => if_neg (by omega)⟩, fun other hother => ?_⟩
  · change 1 + n ≤ 4
    omega
  · by_contra hzero
    have hother0 : other = 0 := by omega
    subst hother0
    have htaken := hother.2 0 (Nat.le_refl 0) (by omega)
    simp [fourPointers] at htaken

/-- One pointer is found at its own address. -/
theorem alloc_first_fit_iff_one :
    fourPointers.FirstFit (fun _ => 0) (fun _ => 0) 1 0 :=
  (alloc_first_fit_iff fourPointers (fun _ => 0) (fun _ => 0) 1 0 (by decide)).mpr
    (Or.inl ⟨1, fourPointers_lowestRun (by decide) (by decide), by decide⟩)

/-- **For two of them `alloc` returns the second.** -/
theorem two_pointers_not_first_fit :
    ¬ fourPointers.FirstFit (fun _ => 0) (fun _ => 0) 2 0 := by
  intro hfit
  have hfound := hfit.found 1 (fourPointers_lowestRun (by decide) (by decide))
  exact absurd hfound (by decide)

end FirstFit

section Clearing

/-- `free`, whose bytes are cleared by a loop with a 32-bit counter. -/
def freeLoop (h : Hash) (mem : ByteMemory) (sect : Word) (length : Half) (fuel : Nat) :
    Option (Hash × ByteMemory) :=
  (Counting.memset sect 0 (length.toNat * h.stride.toNat) fuel mem).map
    fun mem' => ((h.free mem sect length).1, mem')

/-- The bytes of the slots `start` to `start + n - 1`. -/
def InSlots (h : Hash) (start n : Nat) (a : Word) : Prop :=
  ∃ i k, start ≤ i ∧ i < start + n ∧ k < h.stride.toNat ∧
    a = h.slotAddress i + BitVec.ofNat 64 k

/-- The marks and the bytes of one section are cleared, nothing else. -/
structure Cleared (h : Hash) (mem : ByteMemory) (start : Nat) (length : Half)
    (r : Hash × ByteMemory) : Prop where
  marks : ∀ i, r.1.ckarray i =
    if start ≤ i ∧ i < start + length.toNat then 0 else h.ckarray i
  count : r.1.count = h.count - length
  pool : r.1.type = h.type ∧ r.1.length = h.length ∧ r.1.pool = h.pool ∧ r.1.stride = h.stride
  inside : ∀ a, h.InSlots start length.toNat a → r.2 a = 0
  outside : ∀ a, ¬ h.InSlots start length.toNat a → r.2 a = mem a

/-- `free` returns and clears its section. -/
def FreesExactly (h : Hash) (mem : ByteMemory) (sect : Word) (length : Half) : Prop :=
  ∃ fuel r, h.freeLoop mem sect length fuel = some r ∧
    h.Cleared mem (h.slotOf sect) length r

/-- What `alloc` finds in the pool, `free` gives back. -/
def RoundTrip (h : Hash) (mem : ByteMemory) (n : Half) (tryn : Word) : Prop :=
  ∀ sect, (h.alloc n tryn).1 = some sect →
    ∃ fuel r, (h.alloc n tryn).2.freeLoop mem sect n fuel = some r ∧
      r.1.ckarray = h.ckarray ∧ r.1.count = h.count

variable {h : Hash} {mem : ByteMemory} {sect : Word} {length : Half}

theorem freeLoop_returns_iff
    {r : Hash × ByteMemory} :
    (∃ fuel, h.freeLoop mem sect length fuel = some r) ↔
      length.toNat * h.stride.toNat < 2 ^ 32 ∧ r = h.free mem sect length := by
  constructor
  · rintro ⟨fuel, hr⟩
    obtain ⟨mem', hmem, rfl⟩ := Option.map_eq_some_iff.mp hr
    obtain ⟨hbytes, rfl⟩ := Counting.memset_returns_iff.mp ⟨fuel, hmem⟩
    exact ⟨hbytes, rfl⟩
  · rintro ⟨hbytes, rfl⟩
    obtain ⟨fuel, hmem⟩ := Counting.memset_returns_iff.mpr ⟨hbytes, rfl⟩
    refine ⟨fuel, ?_⟩
    rw [freeLoop, hmem]
    rfl

/-- The bytes of a section, one behind the other. -/
theorem inSlots_iff
    {start n : Nat} {a : Word} :
    h.InSlots start n a ↔
      ∃ m, m < n * h.stride.toNat ∧ a = h.slotAddress start + BitVec.ofNat 64 m := by
  have hflat : ∀ i k, start ≤ i →
      h.slotAddress i + BitVec.ofNat 64 k =
        h.slotAddress start + BitVec.ofNat 64 ((i - start) * h.stride.toNat + k) := by
    intro i k hi
    obtain ⟨j, rfl⟩ := Nat.exists_eq_add_of_le hi
    have hstride : h.stride = BitVec.ofNat 64 h.stride.toNat := by simp
    rw [slotAddress, slotAddress, Nat.add_sub_cancel_left, BitVec.ofNat_add,
      BitVec.ofNat_add, BitVec.ofNat_mul, ← hstride, BitVec.mul_add,
      BitVec.mul_comm (BitVec.ofNat 64 j)]
    simp only [BitVec.add_assoc]
  constructor
  · rintro ⟨i, k, hi, hin, hk, rfl⟩
    refine ⟨(i - start) * h.stride.toNat + k, ?_, hflat i k hi⟩
    have hle : (i - start + 1) * h.stride.toNat ≤ n * h.stride.toNat :=
      Nat.mul_le_mul_right _ (by omega)
    rw [Nat.add_mul] at hle
    omega
  · rintro ⟨m, hm, rfl⟩
    have hpos : 0 < h.stride.toNat := Nat.pos_of_ne_zero fun hzero => by
      rw [hzero] at hm
      omega
    have hslot : m / h.stride.toNat < n := Nat.div_lt_of_lt_mul (by rwa [Nat.mul_comm] at hm)
    refine ⟨start + m / h.stride.toNat, m % h.stride.toNat, Nat.le_add_right _ _,
      Nat.add_lt_add_left hslot _, Nat.mod_lt _ hpos, ?_⟩
    rw [hflat _ _ (Nat.le_add_right _ _), Nat.add_sub_cancel_left, Nat.mul_comm,
      Nat.div_add_mod]

/-- `free` on a section clears what it should, and leaves marks behind slot `length`. -/
theorem cleared_free_iff
    (hsect : sect = h.slotAddress (h.slotOf sect)) :
    h.Cleared mem (h.slotOf sect) length (h.free mem sect length) ↔
      ∀ i, h.slotOf sect ≤ i → length.toNat ≤ i → i < h.slotOf sect + length.toNat →
        h.ckarray i = 0 := by
  constructor
  · intro hcleared i hstart hlength hin
    have hmark := hcleared.marks i
    rw [free_ckarray, if_neg (by omega), if_pos ⟨hstart, hin⟩] at hmark
    exact hmark
  · intro hfree
    refine ⟨fun i => ?_, rfl, ⟨rfl, rfl, rfl, rfl⟩, fun a ha => ?_, fun a ha => ?_⟩
    · rw [free_ckarray]
      split_ifs with hcode hspec hspec
      · rfl
      · exact absurd ⟨hcode.1, by omega⟩ hspec
      · exact hfree i hspec.1 (by omega) hspec.2
      · rfl
    · rw [inSlots_iff, ← hsect] at ha
      obtain ⟨m, hm, rfl⟩ := ha
      rcases fillBytes_apply mem sect 0 (length.toNat * h.stride.toNat)
        (sect + BitVec.ofNat 64 m) with ⟨_, hvalue⟩ | ⟨hout, _⟩
      · exact hvalue
      · exact absurd rfl (hout m hm)
    · rw [inSlots_iff, ← hsect] at ha
      rcases fillBytes_apply mem sect 0 (length.toNat * h.stride.toNat) a with
        ⟨hin, _⟩ | ⟨_, hvalue⟩
      · exact absurd hin ha
      · exact hvalue

theorem freesExactly_iff
    (hsect : sect = h.slotAddress (h.slotOf sect)) :
    h.FreesExactly mem sect length ↔
      length.toNat * h.stride.toNat < 2 ^ 32 ∧
        ∀ i, h.slotOf sect ≤ i → length.toNat ≤ i → i < h.slotOf sect + length.toNat →
          h.ckarray i = 0 := by
  constructor
  · rintro ⟨fuel, r, hr, hcleared⟩
    obtain ⟨hbytes, rfl⟩ := freeLoop_returns_iff.mp ⟨fuel, hr⟩
    exact ⟨hbytes, (cleared_free_iff hsect).mp hcleared⟩
  · rintro ⟨hbytes, hfree⟩
    obtain ⟨fuel, hr⟩ := freeLoop_returns_iff.mpr ⟨hbytes, rfl⟩
    exact ⟨fuel, _, hr, (cleared_free_iff hsect).mpr hfree⟩

/-- Only the marks tell the pool behind the two calls from the one before. -/
theorem free_alloc_restores_iff
    {n : Half} {tryn : Word}
    (hpool : (h.alloc n tryn).2 = { h with count := h.count + n }) :
    (∃ fuel r, (h.alloc n tryn).2.freeLoop mem sect n fuel = some r ∧
        r.1.ckarray = h.ckarray ∧ r.1.count = h.count) ↔
      n.toNat * h.stride.toNat < 2 ^ 32 ∧
        ∀ i, h.slotOf sect ≤ i → i < n.toNat → h.ckarray i = 0 := by
  rw [hpool]
  have hmarks : ∀ i, (({ h with count := h.count + n } : Hash).free mem sect n).1.ckarray i =
      if h.slotOf sect ≤ i ∧ i < n.toNat then 0 else h.ckarray i :=
    free_ckarray mem sect n
  constructor
  · rintro ⟨fuel, r, hr, hsame, _⟩
    obtain ⟨hbytes, rfl⟩ := freeLoop_returns_iff.mp ⟨fuel, hr⟩
    refine ⟨hbytes, fun i hi hin => ?_⟩
    have hmark := hmarks i
    rw [hsame, if_pos ⟨hi, hin⟩] at hmark
    exact hmark
  · rintro ⟨hbytes, hfree⟩
    obtain ⟨fuel, hr⟩ := freeLoop_returns_iff (h := { h with count := h.count + n }).mpr
      ⟨hbytes, rfl⟩
    refine ⟨fuel, _, hr, funext fun i => ?_, BitVec.add_sub_cancel h.count n⟩
    rw [hmarks i]
    split_ifs with hin
    · exact (hfree i hin.1 hin.2).symm
    · rfl

theorem roundTrip_iff
    {n : Half} {tryn : Word} :
    h.RoundTrip mem n tryn ↔
      ∀ start, h.LowestRun n.toNat start →
        n.toNat * h.stride.toNat < 2 ^ 32 ∧
          ∀ i, h.slotOf (h.pool + 8#64 * BitVec.ofNat 64 (start + n.toNat - 1)) ≤ i →
            i < n.toNat → h.ckarray i = 0 := by
  by_cases hn : 1 ≤ n.toNat
  · rcases exists_lowestRun (h := h) (n := n.toNat) with ⟨start, hlowest⟩ | hnone
    · have halloc : h.alloc n tryn =
          (some (h.pool + 8#64 * BitVec.ofNat 64 (start + n.toNat - 1)),
            { h with count := h.count + n }) := alloc_found hn hlowest
      have hfound := congrArg Prod.fst halloc
      have hpool := congrArg Prod.snd halloc
      constructor
      · intro htrip other hother
        have hsame : other = start :=
          Nat.le_antisymm (hother.2 _ hlowest.1) (hlowest.2 _ hother.1)
        subst hsame
        exact (free_alloc_restores_iff hpool).mp (htrip _ hfound)
      · intro hfree sect hsect
        rw [hfound] at hsect
        cases hsect
        exact (free_alloc_restores_iff hpool).mpr (hfree start hlowest)
    · constructor
      · exact fun _ start hlowest => absurd hlowest.1 (hnone start)
      · intro _ sect hsect
        rw [alloc_missed hn hnone] at hsect
        split_ifs at hsect
  · -- for no slot the two calls do nothing
    have hzero : n = 0 := BitVec.eq_of_toNat_eq (by simp; omega)
    subst hzero
    refine ⟨fun _ start _ => ⟨by simp, fun i _ hi => absurd hi (by simp)⟩,
      fun _ sect hsect => ?_⟩
    have hpool : (h.alloc 0 tryn).2 = { h with count := h.count + 0 } := by
      rw [alloc] at hsect ⊢
      split at hsect
      · rfl
      · split_ifs at hsect
    exact (free_alloc_restores_iff hpool).mpr
      ⟨by simp, fun i _ hi => absurd hi (by simp)⟩

/-- **`free` clears its section exactly when the section has less than 2^32 bytes and
the slots of it that have a number of `length` or more are unmarked; it undoes an
`alloc` exactly when the slots below `n`, from the one returned on, are.** -/
theorem free_undoes_alloc_iff
    (h : Hash) (mem : ByteMemory) (sect : Word) (length n : Half) (tryn : Word)
    (hsect : sect = h.slotAddress (h.slotOf sect)) :
    (h.FreesExactly mem sect length ↔
      length.toNat * h.stride.toNat < 2 ^ 32 ∧
        ∀ i, h.slotOf sect ≤ i → length.toNat ≤ i → i < h.slotOf sect + length.toNat →
          h.ckarray i = 0) ∧
    (h.RoundTrip mem n tryn ↔
      ∀ start, h.LowestRun n.toNat start →
        n.toNat * h.stride.toNat < 2 ^ 32 ∧
          ∀ i, h.slotOf (h.pool + 8#64 * BitVec.ofNat 64 (start + n.toNat - 1)) ≤ i →
            i < n.toNat → h.ckarray i = 0) :=
  ⟨freesExactly_iff hsect, roundTrip_iff⟩

/-- The first pointer is cleared, and so is the second when it was taken before. -/
theorem free_undoes_alloc_iff_one :
    fourPointers.FreesExactly (fun _ => 0) 4096 1 ∧
      fourPointers.RoundTrip (fun _ => 0) 1 0 := by
  obtain ⟨hfrees, htrip⟩ :=
    free_undoes_alloc_iff fourPointers (fun _ => 0) 4096 1 1 0 (by decide)
  refine ⟨hfrees.mpr ⟨by decide, fun i _ hi hi' => ?_⟩,
    htrip.mpr fun start hlowest => ⟨by decide, fun i hi hi' => ?_⟩⟩
  · exact if_neg (by have : fourPointers.slotOf 4096 = 0 := by decide
                     have : (1 : Half).toNat = 1 := rfl
                     omega)
  · have hstart : start = 1 :=
      Nat.le_antisymm (hlowest.2 _ (fourPointers_lowestRun (by decide) (by decide)).1)
        ((fourPointers_lowestRun (n := 1) (by decide) (by decide)).2 _ hlowest.1)
    subst hstart
    have hslot : fourPointers.slotOf (fourPointers.pool + 8#64 * BitVec.ofNat 64 1) = 1 := by
      decide
    have hone : (1 : Half).toNat = 1 := rfl
    exact absurd (Nat.le_trans (Nat.le_of_eq hslot.symm) hi) (by omega)

/-- All four pointers in use. -/
def fullPointers : Hash :=
  ⟨.POINTER, 4, 4, fun _ => 1, 4096, 8⟩

/-- **The third pointer stays marked when it is freed.** -/
theorem third_pointer_not_freed :
    ¬ fullPointers.FreesExactly (fun _ => 0) 4112 1 := by
  rintro ⟨fuel, r, hr, hcleared⟩
  obtain ⟨_, rfl⟩ := freeLoop_returns_iff.mp ⟨fuel, hr⟩
  exact absurd (hcleared.marks 2) (by decide)

end Clearing

end Hash

end Kontrol
end BestKernel
