import BestKernel.Library.Promotion
import BestKernel.Processes.Teardown

/-!
# The checksum of an executable

`EXEC_CHECK_CHECKSUM` adds up the fields of a header from left to right.  Those of 8 and 16
bits are promoted to `int`, the two of 32 bits make the sum unsigned, and only the words of
the identification widen it to 64 bits: up to there it is reduced by 32 bits
(`sum_of_promotions`).

So the sum is the one that is documented as long as the fields before the identification
add up to less than `2^32` (`sum_eq_exactSum_iff`), and `checksum_right_iff` says for which
headers the check is right.  That a change of one field of 32 bits is noticed, and that a
rejected file leaves nothing but its first page, always holds.
-/

namespace BestKernel
namespace Processes

open Machine
open Promotion

namespace Header

/-- The sum as it is written, with the promotions of its operands. -/
def promotedSum (h : Header) : Arith :=
  .short h.heapsize + .short h.tls_size + .short h.stacksize + .short h.max_descriptors +
    .unsignedInt h.start + .unsignedInt h.program_type + .unsignedLong (h.id 0) +
    .unsignedLong (h.id 1) + .unsignedLong (h.id 2) + .unsignedLong (h.id 3)

/-- The fields before the identification. -/
def lowSum (h : Header) : Nat :=
  h.heapsize.toNat + h.tls_size.toNat + h.stacksize.toNat + h.max_descriptors.toNat +
    h.start.toNat + h.program_type.toNat

/-- The words of the identification. -/
def idSum (h : Header) : Nat :=
  (h.id 0).toNat + (h.id 1).toNat + (h.id 2).toNat + (h.id 3).toNat

/-- The sum of all fields, modulo `2^64`. -/
def exactSum (h : Header) : Word := BitVec.ofNat 64 (h.lowSum + h.idSum)

end Header

section Specification

/-- The executable has this header. -/
def Config.withHeader (k : Config) (header : Header) : Config :=
  { k with headerAt := fun _ => header }

variable (k : Config) (s : Kernel) (calling_thread source : Nat)

/-- `exec` returns at the checksum of the header. -/
def Kernel.Rejects (header : Header) (s' : Kernel) : Prop :=
  s.exec (k.withHeader header) calling_thread source = some (-1, none, s')

/-- `exec` goes past the checksum. -/
def Kernel.Passes (header : Header) : Prop := ∀ s', ¬ s.Rejects k calling_thread source header s'

/-- Nothing has changed but the first page of the file. -/
structure Untouched (s' : Kernel) : Prop where
  kprc : s'.kprc = s.kprc
  ktrd : s'.ktrd = s.ktrd
  kdescs : s'.kdescs = s.kdescs
  kptr : s'.kptr = s.kptr
  pages : ∀ f p, f ≠ source ∨ p ≠ 0 → (s'.files f).mem.pool p = (s.files f).mem.pool p

/-- What the check of a header should do. -/
structure ChecksumRight (header : Header) : Prop where
  sum : s.Passes k calling_thread source header ↔ header.checksum = header.exactSum
  start : s.Passes k calling_thread source header → ∀ start, start ≠ header.start →
    ∃ s', s.Rejects k calling_thread source { header with start := start } s'
  program_type : s.Passes k calling_thread source header → ∀ type, type ≠ header.program_type →
    ∃ s', s.Rejects k calling_thread source { header with program_type := type } s'
  rejected : ∀ s', s.Rejects k calling_thread source header s' → Untouched s source s'

end Specification

namespace Header

variable (h : Header)

theorem lowSum_lt : h.lowSum < 3 * 2 ^ 32 := by
  have hheap := h.heapsize.isLt
  have htls := h.tls_size.isLt
  have hstack := h.stacksize.isLt
  have hdescs := h.max_descriptors.isLt
  have hstart := h.start.isLt
  have htype := h.program_type.isLt
  unfold lowSum
  omega

/-- The sum that is compared, as a number. -/
theorem sum_eq : h.sum = BitVec.ofNat 64 (h.lowSum % 2 ^ 32 + h.idSum) := by
  apply BitVec.eq_of_toNat_eq
  unfold sum lowSum idSum
  simp only [BitVec.toNat_add, BitVec.toNat_setWidth, BitVec.toNat_ofNat]
  omega

/-- The operands of 8 and 16 bits add up as they are. -/
theorem shorts_eq :
    (.short h.heapsize + .short h.tls_size + .short h.stacksize + .short h.max_descriptors :
        Arith) =
      .number .int ((h.heapsize.toNat + h.tls_size.toNat + h.stacksize.toNat +
        h.max_descriptors.toNat : Nat) : Int) := by
  have hheap := h.heapsize.isLt
  have htls := h.tls_size.isLt
  have hstack := h.stacksize.isLt
  have hdescs := h.max_descriptors.isLt
  have hfirst : (.short h.heapsize + .short h.tls_size : Arith) =
      .number .int ((h.heapsize.toNat + h.tls_size.toNat : Nat) : Int) :=
    Arith.add_eq (by simp; omega) (by simp; omega) (by simp; omega)
  have hsecond : (.number .int ((h.heapsize.toNat + h.tls_size.toNat : Nat) : Int) +
        .short h.stacksize : Arith) =
      .number .int ((h.heapsize.toNat + h.tls_size.toNat + h.stacksize.toNat : Nat) : Int) :=
    Arith.add_eq (by simp; omega) (by simp; omega) (by simp; omega)
  rw [hfirst, hsecond]
  exact Arith.add_eq (by simp; omega) (by simp; omega) (by simp; omega)

/-- The operands of 32 bits reduce the sum. -/
theorem lows_eq :
    (.short h.heapsize + .short h.tls_size + .short h.stacksize + .short h.max_descriptors +
        .unsignedInt h.start + .unsignedInt h.program_type : Arith) =
      .number .unsignedInt ((h.lowSum % 2 ^ 32 : Nat) : Int) := by
  have hheap := h.heapsize.isLt
  have htls := h.tls_size.isLt
  have hstack := h.stacksize.isLt
  have hdescs := h.max_descriptors.isLt
  have hstart : (.number .int ((h.heapsize.toNat + h.tls_size.toNat + h.stacksize.toNat +
        h.max_descriptors.toNat : Nat) : Int) + .unsignedInt h.start : Arith) =
      .number .unsignedInt (((h.heapsize.toNat + h.tls_size.toNat + h.stacksize.toNat +
        h.max_descriptors.toNat + h.start.toNat) % 2 ^ 32 : Nat) : Int) :=
    Arith.add_unsigned (by simp; omega) h.start.isLt rfl
  have hlow : ∀ n : Nat, n % 2 ^ 32 < IntType.unsignedInt.bound :=
    fun n => Nat.mod_lt n (by decide)
  rw [shorts_eq, hstart, lowSum, ← Nat.mod_add_mod (h.heapsize.toNat + h.tls_size.toNat +
    h.stacksize.toNat + h.max_descriptors.toNat + h.start.toNat)]
  exact Arith.add_unsigned (u := .unsignedInt) (hlow _) h.program_type.isLt rfl

/-- An operand of 64 bits. -/
theorem add_long
    {t : IntType} {n : Nat}
    (hn : n < t.bound)
    (x : Word) :
    (.number t (n : Int) + .unsignedLong x : Arith) =
      .number .unsignedLong (((n + x.toNat) % 2 ^ 64 : Nat) : Int) := by
  have htype : t.common .unsignedLong = .unsignedLong := by
    cases t <;> rfl
  have hadd := Arith.add_unsigned hn (show x.toNat < IntType.unsignedLong.bound from x.isLt)
    (by rw [htype]; rfl)
  rwa [htype] at hadd

/-- **The sum is reduced where the promotions say.** -/
theorem sum_of_promotions : h.promotedSum.toWord = some h.sum := by
  have hlow : h.lowSum % 2 ^ 32 < IntType.unsignedInt.bound := Nat.mod_lt _ (by decide)
  have hmod : ∀ n : Nat, n % 2 ^ 64 < IntType.unsignedLong.bound :=
    fun n => Nat.mod_lt n (by decide)
  rw [promotedSum, lows_eq, add_long hlow, add_long (hmod _), add_long (hmod _),
    add_long (hmod _), Arith.toWord_natCast, sum_eq, idSum]
  congr 1
  apply BitVec.eq_of_toNat_eq
  rw [BitVec.toNat_ofNat, BitVec.toNat_ofNat]
  omega

/-- **It is the documented sum** when nothing is lost in 32 bits. -/
theorem sum_eq_exactSum_iff : h.sum = h.exactSum ↔ h.lowSum < 2 ^ 32 := by
  have hlt := h.lowSum_lt
  rw [sum_eq, exactSum, ← BitVec.toNat_inj, BitVec.toNat_ofNat, BitVec.toNat_ofNat]
  omega

/-- The sum without the words of the identification. -/
theorem sum_eq_low :
    h.sum = (h.heapsize.setWidth 32 + h.tls_size.setWidth 32 + h.stacksize.setWidth 32 +
      h.max_descriptors.setWidth 32 + h.start + h.program_type : Half).setWidth 64 +
        (h.id 0 + h.id 1 + h.id 2 + h.id 3) := by
  unfold sum
  simp only [BitVec.add_assoc]

/-- A sum of 32 bits is not lost when it is widened. -/
theorem setWidth_add_cancel
    {x y : Half} {z : Word}
    (h : x.setWidth 64 + z = y.setWidth 64 + z) :
    x = y := by
  have hwide := (BitVec.add_left_inj z).mp h
  have hback := congrArg (BitVec.setWidth 32) hwide
  simpa using hback

/-- Another `start` gives another sum. -/
theorem sum_start_ne
    {start : Half}
    (hne : start ≠ h.start) :
    ({ h with start := start } : Header).sum ≠ h.sum := by
  intro hsum
  rw [sum_eq_low, sum_eq_low] at hsum
  have hlow := setWidth_add_cancel hsum
  exact hne ((BitVec.add_right_inj _).mp ((BitVec.add_left_inj _).mp hlow))

/-- And so does another `program_type`. -/
theorem sum_programType_ne
    {type : Half}
    (hne : type ≠ h.program_type) :
    ({ h with program_type := type } : Header).sum ≠ h.sum := by
  intro hsum
  rw [sum_eq_low, sum_eq_low] at hsum
  exact hne ((BitVec.add_right_inj _).mp (setWidth_add_cancel hsum))

end Header

section Execution

variable {k : Config} {s s' : Kernel} {calling_thread source : Nat}

/-- Loading a page touches no other. -/
theorem loadPage_pages
    {f : Nat} {page : Half} {address : Word}
    (h : s.loadPage k f page = some (address, s'))
    {g p : Nat}
    (hother : g ≠ f ∨ p ≠ page.toNat) :
    (s'.files g).mem.pool p = (s.files g).mem.pool p := by
  unfold Kernel.loadPage at h
  dsimp only at h
  split_ifs at h with hcached
  · cases h
    rfl
  · obtain ⟨⟨fresh, table⟩, _, h⟩ := Option.bind_eq_some_iff.mp h
    cases h
    have hmissing := not_or.mp hcached
    rw [not_not] at hmissing
    dsimp only
    by_cases hg : g = f
    · subst hg
      rw [Function.update_self]
      unfold Vfs.loadPage
      rw [if_neg hmissing.1, if_pos hmissing.2]
      exact Function.update_of_ne (hother.resolve_left fun hne => hne rfl) _ _
    · rw [Function.update_of_ne hg]

/-- `exec` returns at the checksum exactly when the sum is another. -/
theorem exec_rejected_iff
    {code : Word}
    (hload : s.loadPage k source 0 = some (code, s'))
    (t : Kernel) :
    s.exec k calling_thread source = some (-1, none, t) ↔
      (k.headerAt code).sum ≠ (k.headerAt code).checksum ∧ t = s' := by
  unfold Kernel.exec
  rw [hload, Option.bind_eq_bind, Option.bind_some]
  dsimp only
  by_cases hsum : (k.headerAt code).sum ≠ (k.headerAt code).checksum
  · rw [if_pos hsum, and_iff_right hsum]
    constructor
    · intro hexec
      cases hexec
      rfl
    · rintro rfl
      rfl
  · rw [if_neg hsum]
    refine iff_of_false (fun hexec => ?_) fun h => hsum h.1
    split_ifs at hexec
    · cases hexec
    · -- what is launched has the number of its process
      obtain ⟨s₂, -, hexec⟩ := Option.bind_eq_some_iff.mp hexec
      obtain ⟨⟨process, main_thread, s₃⟩, -, hexec⟩ := Option.bind_eq_some_iff.mp hexec
      have hret : (process : Int) = -1 := congrArg Prod.fst (Option.some.inj hexec)
      omega

theorem rejects_iff
    {code : Word}
    (hload : s.loadPage k source 0 = some (code, s'))
    (header : Header) (t : Kernel) :
    s.Rejects k calling_thread source header t ↔ header.sum ≠ header.checksum ∧ t = s' :=
  exec_rejected_iff (k := k.withHeader header) hload t

theorem passes_iff
    {code : Word}
    (hload : s.loadPage k source 0 = some (code, s'))
    (header : Header) :
    s.Passes k calling_thread source header ↔ header.sum = header.checksum := by
  unfold Kernel.Passes
  simp only [rejects_iff hload, not_and]
  constructor
  · intro hpasses
    by_contra hsum
    exact hpasses s' hsum rfl
  · intro hsum t hne
    exact absurd hsum hne

/-- A rejected file leaves its first page. -/
theorem untouched_of_loadPage
    {code : Word}
    (hload : s.loadPage k source 0 = some (code, s')) :
    Untouched s source s' := by
  have hloads := loadPage_loads hload
  exact ⟨hloads.kprc, hloads.ktrd, hloads.kdescs, hloads.kptr,
    fun _ _ hother => loadPage_pages hload hother⟩

/-- **When the checksum of a header is checked as documented**: nothing is lost in 32 bits,
or the checksum is neither the sum that is computed nor the one that is documented. -/
theorem checksum_right_iff
    (hload : (s.loadPage k source 0).isSome)
    (header : Header) :
    ChecksumRight k s calling_thread source header ↔
      header.lowSum < 2 ^ 32 ∨
        header.checksum ≠ BitVec.ofNat 64 (header.lowSum % 2 ^ 32 + header.idSum) ∧
          header.checksum ≠ header.exactSum := by
  obtain ⟨⟨code, s'⟩, hload⟩ := Option.isSome_iff_exists.mp hload
  rw [← header.sum_eq, ← header.sum_eq_exactSum_iff]
  constructor
  · intro hright
    have hsum := (passes_iff hload header).symm.trans hright.sum
    by_cases hexact : header.sum = header.exactSum
    · exact Or.inl hexact
    · refine Or.inr ⟨fun hchecksum => ?_, fun hchecksum => ?_⟩
      · exact hexact (hchecksum.symm.trans (hsum.mp hchecksum.symm))
      · exact hexact ((hsum.mpr hchecksum).trans hchecksum)
  · intro hsafe
    refine ⟨?_, fun hpasses start hne => ?_, fun hpasses type hne => ?_, fun t hrejects => ?_⟩
    · rw [passes_iff hload]
      rcases hsafe with hexact | ⟨hwrapped, hdocumented⟩
      · rw [hexact]
        exact eq_comm
      · exact iff_of_false (fun hsum => hwrapped hsum.symm) hdocumented
    · refine ⟨s', (rejects_iff hload _ _).mpr ⟨?_, rfl⟩⟩
      rw [← (passes_iff hload header).mp hpasses]
      exact header.sum_start_ne hne
    · refine ⟨s', (rejects_iff hload _ _).mpr ⟨?_, rfl⟩⟩
      rw [← (passes_iff hload header).mp hpasses]
      exact header.sum_programType_ne hne
    · obtain ⟨-, rfl⟩ := (rejects_iff hload header t).mp hrejects
      exact untouched_of_loadPage hload

/-- A header that says nothing but where to start, and what it is. -/
def bareHeader (start program_type : Half) (checksum : Word) : Header :=
  ⟨0, 0, 0, 0, start, program_type, fun _ => 0, checksum⟩

theorem checksum_right_iff_bareHeader :
    (idleKernel.loadPage idleConfig 0 0).isSome ∧
      (ChecksumRight idleConfig idleKernel 3 0 (bareHeader 64 1 65) ↔
        (bareHeader 64 1 65).lowSum < 2 ^ 32 ∨
          (bareHeader 64 1 65).checksum ≠
              BitVec.ofNat 64 ((bareHeader 64 1 65).lowSum % 2 ^ 32 + (bareHeader 64 1 65).idSum) ∧
            (bareHeader 64 1 65).checksum ≠ (bareHeader 64 1 65).exactSum) :=
  ⟨rfl, checksum_right_iff rfl _⟩

/-- A header whose two fields of 32 bits add up to `2^32` passes with the checksum 0. -/
theorem bareHeader_not_right :
    (bareHeader 0xFFFFFFFF 1 0).exactSum = 0x100000000#64 ∧
      idleKernel.Passes idleConfig 3 0 (bareHeader 0xFFFFFFFF 1 0) ∧
      ¬ ChecksumRight idleConfig idleKernel 3 0 (bareHeader 0xFFFFFFFF 1 0) := by
  have hload : idleKernel.loadPage idleConfig 0 0 = some (0x6000, idleKernel) := rfl
  have hpasses : idleKernel.Passes idleConfig 3 0 (bareHeader 0xFFFFFFFF 1 0) :=
    (passes_iff hload _).mpr (by decide)
  refine ⟨by decide, hpasses, fun hright => ?_⟩
  exact absurd (hright.sum.mp hpasses) (by decide)

end Execution

end Processes
end BestKernel
