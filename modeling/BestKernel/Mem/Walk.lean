import BestKernel.Mem.PageTree
import Mathlib.Tactic.Set

/-!
# What a walk of the page tree does

`vmto_entry` signs the entries it passes and otherwise only reads.  Everything
the later modules need to know about it is stated here once:

* `vmtoEntry_eq`: the walk in closed form;
* `SameButOccupied`: memories that differ in occupancy bits only, which is all
  that walks and searches can change;
* `physOf_eq`: what the translation reads and how it decodes it;
* `vmtreeFetch_eq_zero`: a region that the search finds starts at address 0.
-/

namespace BestKernel
namespace Mem

open Machine

/-- Set the occupancy bit of one entry. -/
def sign (m : WordMemory) (a : Word) : WordMemory :=
  Function.update m a (setBit (m a) 56)

@[simp] theorem sign_self (m : WordMemory) (a : Word) :
    sign m a a = setBit (m a) 56 := by
  simp [sign]

theorem sign_of_ne
    {m : WordMemory} {a b : Word}
    (h : b ≠ a) :
    sign m a b = m b := by
  simp [sign, h]

/-- Equal up to the occupancy bit of every entry. -/
def SameButOccupied (m m' : WordMemory) : Prop :=
  ∀ a, setBit (m' a) 56 = setBit (m a) 56

theorem SameButOccupied.refl (m : WordMemory) : SameButOccupied m m :=
  fun _ => rfl

theorem SameButOccupied.trans
    {m m' m'' : WordMemory}
    (h : SameButOccupied m m')
    (h' : SameButOccupied m' m'') :
    SameButOccupied m m'' :=
  fun a => (h' a).trans (h a)

theorem sameButOccupied_sign (m : WordMemory) (a : Word) :
    SameButOccupied m (sign m a) := by
  intro b
  by_cases hb : b = a
  · subst hb
    simp
  · rw [sign_of_ne hb]

/-- A bit other than the occupancy bit reads the same. -/
theorem SameButOccupied.bitSet_eq
    {m m' : WordMemory} {bit : Nat}
    (h : SameButOccupied m m')
    (hbit : bit < 64)
    (hne : bit ≠ 56)
    (a : Word) :
    bitSet (m' a) bit = bitSet (m a) bit := by
  have hsign := congrArg (fun x => bitSet x bit) (h a)
  simpa [bitSet_setBit _ (show 56 < 64 by decide) hbit, hne] using hsign

/-- The entry a walk looks at first: the in-page offset serves as the index. -/
def firstEntry (vm pagetree : Word) : Word :=
  pagetree + 8#64 * (vm <<< 52)

/-- The entry a walk looks at next: the low 21 bits serve as the index. -/
def secondEntry (vm pagetree : Word) : Word :=
  firstEntry vm pagetree + 8#64 * (vm <<< 43)

/-- The walk in closed form. -/
theorem vmtoEntry_eq (vm : Word) (m : WordMemory) (pagetree : Word) :
    vmtoEntry vm m pagetree =
      if bitSet (m (firstEntry vm pagetree)) 7 then
        (sign m (firstEntry vm pagetree), firstEntry vm pagetree)
      else
        (sign (sign m (firstEntry vm pagetree)) (secondEntry vm pagetree),
          secondEntry vm pagetree) := by
  simp [vmtoEntry, vmtoEntryLoop, getMultiFromPagetype, shl, shr, sign,
    bitSet_setBit, firstEntry, secondEntry, Pag.SMALLPAGE, Pag.MIDPAGE, Pag.BIGPAGE]
  rfl

/-- The entry a walk ends at. -/
def entryOf (vm : Word) (m : WordMemory) (pagetree : Word) : Word :=
  (vmtoEntry vm m pagetree).2

theorem entryOf_eq (vm : Word) (m : WordMemory) (pagetree : Word) :
    entryOf vm m pagetree =
      if bitSet (m (firstEntry vm pagetree)) 7 then firstEntry vm pagetree
      else secondEntry vm pagetree := by
  rw [entryOf, vmtoEntry_eq]
  split_ifs <;> rfl

theorem entryOf_congr
    {m m' : WordMemory}
    (h : SameButOccupied m m')
    (vm pagetree : Word) :
    entryOf vm m' pagetree = entryOf vm m pagetree := by
  rw [entryOf_eq, entryOf_eq, h.bitSet_eq (by decide) (by decide)]

theorem vmtoEntry_fst (vm : Word) (m : WordMemory) (pagetree : Word) :
    (vmtoEntry vm m pagetree).1 =
      if bitSet (m (firstEntry vm pagetree)) 7 then
        sign m (firstEntry vm pagetree)
      else
        sign (sign m (firstEntry vm pagetree)) (secondEntry vm pagetree) := by
  rw [vmtoEntry_eq]
  split_ifs <;> rfl

theorem vmtoEntry_same (vm : Word) (m : WordMemory) (pagetree : Word) :
    SameButOccupied m (vmtoEntry vm m pagetree).1 := by
  rw [vmtoEntry_fst]
  split_ifs
  · exact sameButOccupied_sign m _
  · exact (sameButOccupied_sign m _).trans (sameButOccupied_sign _ _)

/-- The walk leaves the entry it ends at signed. -/
theorem vmtoEntry_signs (vm : Word) (m : WordMemory) (pagetree : Word) :
    (vmtoEntry vm m pagetree).1 (entryOf vm m pagetree) =
      setBit (m (entryOf vm m pagetree)) 56 := by
  rw [vmtoEntry_fst, entryOf_eq]
  split_ifs
  · rw [sign_self]
  · rw [sign_self, sameButOccupied_sign]

theorem firstEntry_zero (pagetree : Word) : firstEntry 0 pagetree = pagetree := by
  simp [firstEntry]

theorem secondEntry_zero (pagetree : Word) : secondEntry 0 pagetree = pagetree := by
  rw [secondEntry, firstEntry_zero]
  simp

/-- The address 0 walks to the first entry of the tree. -/
theorem vmtoEntry_zero (m : WordMemory) (pagetree : Word) :
    vmtoEntry 0 m pagetree = (sign m pagetree, pagetree) := by
  rw [vmtoEntry_eq, firstEntry_zero, secondEntry_zero]
  split_ifs
  · rfl
  · congr 1
    funext a
    by_cases ha : a = pagetree
    · subst ha
      simp
    · rw [sign_of_ne ha]

/-- How an entry is decoded for an address. -/
def decodeEntry (entry vm : Word) : Word :=
  shr (setBit entry 56 <<< 5) (18 + vm.toNat % 4096)

/-- The address that the tree gives for `vm`. -/
def physOf (m : WordMemory) (pagetree vm : Word) : Word :=
  (vmtoPhys m pagetree vm).2

theorem physOf_eq (m : WordMemory) (pagetree vm : Word) :
    physOf m pagetree vm =
      if entryOf vm m pagetree = 0 then 0
      else decodeEntry (m (entryOf vm m pagetree)) vm := by
  have hsigned := vmtoEntry_signs vm m pagetree
  unfold physOf vmtoPhys
  rw [show vmtoEntry vm m pagetree =
    ((vmtoEntry vm m pagetree).1, entryOf vm m pagetree) from rfl]
  dsimp only
  split_ifs with h
  · exact h
  · rw [hsigned]
    rfl

/-- Occupancy bits make no difference to a translation. -/
theorem physOf_congr
    {m m' : WordMemory}
    (h : SameButOccupied m m')
    (pagetree vm : Word) :
    physOf m' pagetree vm = physOf m pagetree vm := by
  rw [physOf_eq, physOf_eq, entryOf_congr h]
  simp only [decodeEntry, h (entryOf vm m pagetree)]

/-- The decoded address loses a bit for every byte of in-page offset. -/
theorem decodeEntry_toNat_lt (entry vm : Word) :
    (decodeEntry entry vm).toNat < 2 ^ (64 - (18 + vm.toNat) % 64) := by
  have h := shr_toNat_lt (setBit entry 56 <<< 5) (18 + vm.toNat % 4096)
  rwa [show (18 + vm.toNat % 4096) % 64 = (18 + vm.toNat) % 64 by omega] at h

theorem physOf_toNat_lt (m : WordMemory) (pagetree vm : Word) :
    (physOf m pagetree vm).toNat < 2 ^ (64 - (18 + vm.toNat) % 64) := by
  rw [physOf_eq]
  split_ifs
  · exact Nat.two_pow_pos _
  · exact decodeEntry_toNat_lt _ _

/-- The occupancy bit, which the walk has set, bounds the address from below. -/
theorem le_decodeEntry_toNat
    (entry : Word) {vm : Word}
    (hcount : (18 + vm.toNat) % 64 ≤ 61) :
    2 ^ (61 - (18 + vm.toNat) % 64) ≤ (decodeEntry entry vm).toNat := by
  have hbit : (setBit entry 56 <<< 5).getLsbD 61 = true := by
    rw [BitVec.getLsbD_shiftLeft, getLsbD_setBit _ (by decide)]
    simp
  have hset : 2 ^ 61 ≤ (setBit entry 56 <<< 5).toNat := by
    rw [← BitVec.testBit_toNat] at hbit
    exact Nat.ge_two_pow_of_testBit hbit
  have hmod : (18 + vm.toNat % 4096) % 64 = (18 + vm.toNat) % 64 := by omega
  have hshr : 2 ^ (61 - (18 + vm.toNat % 4096) % 64) ≤ (decodeEntry entry vm).toNat :=
    le_shr_toNat hset (by omega)
  rwa [hmod] at hshr

theorem le_physOf_toNat
    {m : WordMemory} {pagetree vm : Word}
    (h : physOf m pagetree vm ≠ 0)
    (hcount : (18 + vm.toNat) % 64 ≤ 61) :
    2 ^ (61 - (18 + vm.toNat) % 64) ≤ (physOf m pagetree vm).toNat := by
  rw [physOf_eq] at h ⊢
  split_ifs at h ⊢ with hentry
  · exact absurd rfl h
  · exact le_decodeEntry_toNat _ hcount

/-- Four numbers in a row do not fit bounds that halve from each to the next. -/
theorem not_four_halving
    {F c : Nat}
    (hc : c < 64)
    (hF : F < 2 ^ 64)
    (hupper : ∀ i, i < 4 → (F + i) % 2 ^ 64 < 2 ^ (64 - (c + i) % 64))
    (hlower : ∀ i, i < 4 → (c + i) % 64 ≤ 61 → (F + i) % 2 ^ 64 = 0 ∨
      2 ^ (61 - (c + i) % 64) ≤ (F + i) % 2 ^ 64) :
    False := by
  have hupper1 := hupper 1 (by omega)
  have hupper2 := hupper 2 (by omega)
  have hlower1 := hlower 1 (by omega)
  have hlower2 := hlower 2 (by omega)
  by_cases hsmall : c ≤ 60
  · -- the first address is below `16 * Q` and the last one below `2 * Q`
    obtain ⟨Q, hQ⟩ : ∃ Q, Q = 2 ^ (60 - c) := ⟨_, rfl⟩
    have hQbound : Q ≤ 2 ^ 60 := hQ ▸ Nat.pow_le_pow_right (by omega) (by omega)
    have hpow0 : 2 ^ (61 - c) = 2 * Q := by
      rw [hQ, show 61 - c = (60 - c) + 1 by omega, Nat.pow_succ, Nat.mul_comm]
    have hupper0 := hupper 0 (by omega)
    have hlower0 := hlower 0 (by omega)
    have hupper3 := hupper 3 (by omega)
    rw [show (c + 0) % 64 = c by omega] at hupper0 hlower0
    rw [show (c + 1) % 64 = c + 1 by omega] at hupper1 hlower1
    rw [show 61 - (c + 1) = 60 - c by omega, ← hQ] at hlower1
    rw [show 64 - (c + 3) % 64 = 61 - c by omega, hpow0] at hupper3
    rw [show 64 - c = (61 - c) + 3 by omega, Nat.pow_add, hpow0] at hupper0
    rw [show 64 - (c + 1) = (61 - c) + 2 by omega, Nat.pow_add, hpow0] at hupper1
    rw [hpow0] at hlower0
    have hhalf : (F + 2) % 2 ^ 64 = 0 ∨ Q ≤ 2 * ((F + 2) % 2 ^ 64) := by
      by_cases hc60 : c = 60
      · rw [hc60] at hQ
        omega
      · have hpow2 : Q = 2 ^ (61 - (c + 2) % 64) * 2 := by
          rw [hQ, ← Nat.pow_succ]
          congr 1
          omega
        have hle := hlower2 (by omega)
        omega
    omega
  · obtain rfl | rfl | rfl : c = 61 ∨ c = 62 ∨ c = 63 := by omega
    all_goals
      simp only [Nat.reduceAdd, Nat.reduceMod, Nat.reduceSub] at hupper1 hupper2 hlower1 hlower2
      have hupper0 := hupper 0 (by omega)
      simp only [Nat.reduceAdd, Nat.reduceMod, Nat.reduceSub] at hupper0
      omega

/-- **No four addresses in a row have flat translations.** -/
theorem not_flat_of_four
    (m : WordMemory) (pagetree vm : Word) :
    ¬ ∀ i, i < 4 → physOf m pagetree (vm + BitVec.ofNat 64 i) =
      physOf m pagetree vm + BitVec.ofNat 64 i := by
  intro hflat
  have hcount : ∀ i, i < 4 →
      (18 + (vm + BitVec.ofNat 64 i).toNat) % 64 = ((18 + vm.toNat) % 64 + i) % 64 := by
    intro i hi
    rw [BitVec.toNat_add, BitVec.toNat_ofNat]
    omega
  have hsum : ∀ i, i < 4 → (physOf m pagetree (vm + BitVec.ofNat 64 i)).toNat =
      ((physOf m pagetree vm).toNat + i) % 2 ^ 64 := by
    intro i hi
    rw [hflat i hi, BitVec.toNat_add, BitVec.toNat_ofNat, Nat.add_mod_mod]
  have hupper : ∀ i, i < 4 → ((physOf m pagetree vm).toNat + i) % 2 ^ 64 <
      2 ^ (64 - ((18 + vm.toNat) % 64 + i) % 64) := by
    intro i hi
    rw [← hsum i hi, ← hcount i hi]
    exact physOf_toNat_lt _ _ _
  have hlower : ∀ i, i < 4 → ((18 + vm.toNat) % 64 + i) % 64 ≤ 61 →
      ((physOf m pagetree vm).toNat + i) % 2 ^ 64 = 0 ∨
        2 ^ (61 - ((18 + vm.toNat) % 64 + i) % 64) ≤
          ((physOf m pagetree vm).toNat + i) % 2 ^ 64 := by
    intro i hi hle
    rw [← hsum i hi, ← hcount i hi]
    rw [← hcount i hi] at hle
    by_cases hzero : physOf m pagetree (vm + BitVec.ofNat 64 i) = 0
    · exact Or.inl (by rw [hzero]; rfl)
    · exact Or.inr (le_physOf_toNat hzero hle)
  exact not_four_halving (Nat.mod_lt _ (by decide)) (physOf m pagetree vm).isLt hupper hlower

section Search

variable {pagetree : Word}

theorem fetchInner_eq
    (m : WordMemory) (pointer : Word) (iterator left j : Nat) :
    fetchInner m pointer iterator left j =
      if fetchBlocked m pointer iterator then j else j + left := by
  induction left generalizing j with
  | zero => simp [fetchInner]
  | succ left ih =>
      rw [fetchInner]
      split_ifs with h
      · rfl
      · rw [ih (j + 1), if_neg h]
        omega

/-- The search only signs entries. -/
theorem fetchLoop_same
    (pages_number : Nat) (pointer : Word) :
    ∀ (left iterator : Nat) (m : WordMemory),
      SameButOccupied m
        (fetchLoop pagetree pages_number pointer left iterator m).2
  | 0, _, m => SameButOccupied.refl m
  | left + 1, iterator, m => by
      rw [fetchLoop]
      split_ifs with hinner
      · exact fetchLoop_same pages_number pointer left (iterator + 1) m
      · have hwalk := vmtoEntry_same
          (entrytoVm pagetree (wordAt pointer iterator)) m pagetree
        dsimp only
        split_ifs with hentry
        · exact hwalk
        · exact hwalk.trans
            (fetchLoop_same pages_number pointer left (iterator + 1) _)

theorem vmtreeFetch_same
    (m : WordMemory) (pages_number pagetype : Nat) :
    SameButOccupied m (vmtreeFetch pagetree m pages_number pagetype).2 :=
  fetchLoop_same _ _ _ _ _

/-- A walk that ends at an entry puts it a multiple of `2^46` bytes behind the
root, so `entryto_vm`, which keeps 32 bits of the distance, finds 0. -/
theorem entrytoVm_entryOf
    {entry vm : Word} {m : WordMemory}
    (hentry : entryOf vm m pagetree = entry) :
    entrytoVm pagetree entry = 0 := by
  have hdist : (entry - pagetree).setWidth 32 = 0#32 := by
    apply BitVec.eq_of_toNat_eq
    rw [← hentry, entryOf_eq]
    unfold secondEntry firstEntry
    split_ifs
    · rw [BitVec.add_comm, BitVec.add_sub_cancel]
      simp only [BitVec.toNat_setWidth, BitVec.toNat_mul, BitVec.toNat_shiftLeft,
        Nat.shiftLeft_eq, BitVec.toNat_ofNat]
      omega
    · rw [BitVec.add_assoc, BitVec.add_comm, BitVec.add_sub_cancel]
      simp only [BitVec.toNat_setWidth, BitVec.toNat_add, BitVec.toNat_mul,
        BitVec.toNat_shiftLeft, Nat.shiftLeft_eq, BitVec.toNat_ofNat]
      omega
  rw [entrytoVm, hdist]
  decide

theorem fetchLoop_eq_zero
    {pages_number : Nat} {pointer vm : Word} :
    ∀ {left iterator : Nat} {m : WordMemory},
      (fetchLoop pagetree pages_number pointer left iterator m).1 = some vm →
      vm = 0
  | 0, _, _, h => by simp [fetchLoop] at h
  | left + 1, iterator, m, h => by
      rw [fetchLoop] at h
      split_ifs at h with hinner
      · exact fetchLoop_eq_zero h
      · dsimp only at h
        split_ifs at h with hentry
        · cases h
          exact entrytoVm_entryOf hentry
        · exact fetchLoop_eq_zero h

/-- Every region the search finds starts at address 0. -/
theorem vmtreeFetch_eq_zero
    {m : WordMemory} {pages_number pagetype : Nat} {vm : Word}
    (h : (vmtreeFetch pagetree m pages_number pagetype).1 = some vm) :
    vm = 0 :=
  fetchLoop_eq_zero h

/-- Found or not, `vmtree_fetch` returns the null pointer. -/
theorem fetchedPointer_vmtreeFetch
    (m : WordMemory) (pages_number pagetype : Nat) :
    fetchedPointer (vmtreeFetch pagetree m pages_number pagetype).1 = 0 := by
  cases h : (vmtreeFetch pagetree m pages_number pagetype).1 with
  | none => rfl
  | some vm => exact vmtreeFetch_eq_zero h

/-- Blocked entries are passed over without a trace. -/
theorem fetchLoop_skip
    {pages_number : Nat} {pointer : Word} {m : WordMemory}
    (hpages : 0 < pages_number) :
    ∀ {skipped left iterator : Nat},
      (∀ i, i < skipped → fetchBlocked m pointer (iterator + i) = true) →
      fetchLoop pagetree pages_number pointer (skipped + left) iterator m =
        fetchLoop pagetree pages_number pointer left (iterator + skipped) m
  | 0, left, iterator, _ => by simp
  | skipped + 1, left, iterator, hblocked => by
      have hhead := hblocked 0 (Nat.succ_pos _)
      have hinner :
          fetchInner m pointer iterator pages_number 0 ≠ pages_number := by
        rw [fetchInner_eq, if_pos (by simpa using hhead)]
        omega
      rw [show skipped + 1 + left = (skipped + left) + 1 by omega, fetchLoop,
        if_pos hinner, fetchLoop_skip hpages]
      · congr 1
        omega
      · intro i hi
        have := hblocked (i + 1) (by omega)
        rwa [show iterator + (i + 1) = iterator + 1 + i by omega] at this

/-- An entry that is free and that its own address walks to is found. -/
theorem fetchLoop_hit
    {pages_number left iterator : Nat} {pointer : Word} {m : WordMemory}
    (hfree : fetchBlocked m pointer iterator = false)
    (hroot : wordAt pointer iterator = pagetree) :
    fetchLoop pagetree pages_number pointer (left + 1) iterator m =
      (some 0, sign m pagetree) := by
  have hinner :
      ¬ fetchInner m pointer iterator pages_number 0 ≠ pages_number := by
    rw [fetchInner_eq, hfree]
    simp
  have hvm : entrytoVm pagetree pagetree = 0 := by
    rw [entrytoVm, BitVec.sub_self]
    decide
  rw [fetchLoop, if_neg hinner, hroot, hvm]
  dsimp only
  rw [vmtoEntry_zero]
  simp

end Search

end Mem
end BestKernel
