import BestKernel.Kontrol.Sections
import BestKernel.Mem.FrameRuns

/-!
# Resizing a section

`realloc` copies a section into pages of `malloc`, frees it, allocates anew and
copies back.  It should keep the entries and give the pages back, or refuse and
leave the section as it is (`ReallocRight`).

The call `free(backup,lel)` at its end is the member of the class: it clears marks
and lowers the count of the pool, and the pages stay in use.  When there are no new
slots the old ones are gone.  So `realloc` is right exactly when `malloc` refuses,
`pool_realloc_right_iff`.
-/

namespace BestKernel
namespace Kontrol

open Machine Mem

/-- What a `realloc` leaves; `ret` is `none` for `NULLPTR`. -/
structure Resized where
  ret : Option Word
  table : RamTable
  hash : Hash
  mem : ByteMemory

namespace Hash

/-- The pages of the copy, `lel`. -/
def copyPages (h : Hash) (prevlen : Half) : Half :=
  (h.stride * prevlen.setWidth 64 / 4096 + 1).setWidth 32

/-- `realloc` with its `malloc` and its loops. -/
def reallocLoop (h : Hash) (memlen : Half) (table : RamTable) (mem : ByteMemory)
    (sect : Word) (prevlen newlen : Half) (tryn : Word) (fuel : Nat) : Option Resized := do
  let lel := h.copyPages prevlen
  let (backup, table) ← malloc memlen fuel table lel Pag.SMALLPAGE
  if backup = 0 then return ⟨none, table, h, mem⟩
  else
    let bytes := (h.stride * prevlen.setWidth 64).toNat
    let mem ← Counting.memcpy backup sect bytes fuel mem
    let (h, mem) ← h.freeLoop mem sect prevlen fuel
    let (found, h) := h.alloc newlen tryn
    let mem ← Counting.memcpy (found.getD 0) backup bytes fuel mem
    let (h, mem) ← h.freeLoop mem backup lel fuel
    return ⟨found, table, h, mem⟩

end Hash

/-- The section is in the pool and its slots are marked. -/
structure LiveSection (h : Hash) (sect : Word) (length : Half) : Prop where
  inside : h.slotOf sect + length.toNat ≤ h.length.toNat
  marked : ∀ i, h.slotOf sect ≤ i → i < h.slotOf sect + length.toNat → h.ckarray i ≠ 0

/-- The section is marked and counted as before, and so are its contents. -/
structure SectionKept (h : Hash) (mem : ByteMemory) (sect : Word) (length : Half)
    (r : Resized) : Prop where
  marks : ∀ i, h.slotOf sect ≤ i → i < h.slotOf sect + length.toNat → r.hash.ckarray i ≠ 0
  count : r.hash.count = h.count
  contents : ∀ k, k < length.toNat * h.stride.toNat →
    r.mem (sect + BitVec.ofNat 64 k) = mem (sect + BitVec.ofNat 64 k)

/-- `ret` has the new slots and the old entries, the other sections are as before, and no
frame of the copy is in use. -/
structure SectionResized (h : Hash) (memlen : Half) (table : RamTable) (mem : ByteMemory)
    (live : List (Word × Half)) (sect : Word) (prevlen newlen : Half) (ret : Word)
    (r : Resized) : Prop where
  slots : LiveSection r.hash ret newlen
  entries : ∀ k, k < min prevlen.toNat newlen.toNat * h.stride.toNat →
    r.mem (ret + BitVec.ofNat 64 k) = mem (sect + BitVec.ofNat 64 k)
  others : ∀ b, b ∈ live → b ≠ (sect, prevlen) →
    (∀ i, h.slotOf b.1 ≤ i → i < h.slotOf b.1 + b.2.toNat → r.hash.ckarray i = h.ckarray i) ∧
    ∀ k, k < b.2.toNat * h.stride.toNat →
      r.mem (b.1 + BitVec.ofNat 64 k) = mem (b.1 + BitVec.ofNat 64 k)
  released : ∀ fuel backup marked,
    malloc memlen fuel table (h.copyPages prevlen) Pag.SMALLPAGE = some (backup, marked) →
      ∀ n, n ∈ pageFrames backup (h.copyPages prevlen) Pag.SMALLPAGE → n ∉ usedFrames r.table

/-- `realloc` returns, with the section resized or with the old one kept. -/
def ReallocRight (h : Hash) (memlen : Half) (table : RamTable) (mem : ByteMemory)
    (live : List (Word × Half)) (sect : Word) (prevlen newlen : Half) (tryn : Word) : Prop :=
  ∃ fuel r, h.reallocLoop memlen table mem sect prevlen newlen tryn fuel = some r ∧
    match r.ret with
    | none => SectionKept h mem sect prevlen r
    | some ret => SectionResized h memlen table mem live sect prevlen newlen ret r

section Spec

variable {h : Hash} {memlen : Half} {table : RamTable} {mem : ByteMemory} {sect : Word}
  {prevlen newlen : Half} {tryn : Word} {fuel : Nat} {r : Resized}

/-- A `realloc` that returns does what `Hash.realloc` says. -/
theorem reallocLoop_eq_some
    (hr : h.reallocLoop memlen table mem sect prevlen newlen tryn fuel = some r) :
    ∃ backup, malloc memlen fuel table (h.copyPages prevlen) Pag.SMALLPAGE =
        some (backup, r.table) ∧
      h.realloc mem sect prevlen newlen backup tryn = (r.ret.getD 0, r.hash, r.mem) ∧
      (backup ≠ 0 → prevlen.toNat * h.stride.toNat < 2 ^ 32 ∧
        r.ret = ((h.free (copyBytes mem backup sect
          (h.stride * prevlen.setWidth 64).toNat) sect prevlen).1.alloc newlen tryn).1) := by
  unfold Hash.reallocLoop at hr
  obtain ⟨⟨backup, marked⟩, hmalloc, hr⟩ := Option.bind_eq_some_iff.mp hr
  refine ⟨backup, ?_⟩
  dsimp only at hr
  split_ifs at hr with hnull
  · cases hr
    refine ⟨hmalloc, ?_, fun hne => absurd hnull hne⟩
    rw [Hash.realloc, if_pos hnull, hnull]
    rfl
  · obtain ⟨copied, hcopied, hr⟩ := Option.bind_eq_some_iff.mp hr
    obtain ⟨⟨h₁, freed⟩, hfreed, hr⟩ := Option.bind_eq_some_iff.mp hr
    obtain ⟨written, hwritten, hr⟩ := Option.bind_eq_some_iff.mp hr
    obtain ⟨⟨h₂, cleared⟩, hcleared, hr⟩ := Option.bind_eq_some_iff.mp hr
    cases hr
    obtain ⟨_, rfl⟩ := Counting.memcpy_returns_iff.mp ⟨fuel, hcopied⟩
    obtain ⟨hbytes, hfree⟩ := Hash.freeLoop_returns_iff.mp ⟨fuel, hfreed⟩
    obtain ⟨_, rfl⟩ := Counting.memcpy_returns_iff.mp ⟨fuel, hwritten⟩
    obtain ⟨_, hclear⟩ := Hash.freeLoop_returns_iff.mp ⟨fuel, hcleared⟩
    obtain ⟨rfl, rfl⟩ := Prod.mk.inj hfree
    obtain ⟨rfl, rfl⟩ := Prod.mk.inj hclear
    refine ⟨hmalloc, ?_, fun _ => ⟨hbytes, rfl⟩⟩
    rw [Hash.realloc, if_neg hnull]
    rfl

/-- `alloc` counts what it hands out and nothing else. -/
theorem alloc_count_of_none
    {n : Half}
    (hnone : (h.alloc n tryn).1 = none) :
    (h.alloc n tryn).2.count = h.count := by
  rw [Hash.alloc] at hnone ⊢
  split at hnone
  · cases hnone
  · split_ifs <;> rfl

/-- The slots that the first `free` clears are unmarked behind the last one. -/
theorem realloc_ckarray
    {backup : Word} {i : Nat}
    (hnull : backup ≠ 0)
    (hstart : h.slotOf sect ≤ i)
    (hin : i < prevlen.toNat) :
    (h.realloc mem sect prevlen newlen backup tryn).2.1.ckarray i = 0 := by
  rw [Hash.realloc, if_neg hnull]
  dsimp only
  have hfirst : (if h.slotOf sect ≤ i ∧ i < prevlen.toNat then 0 else h.ckarray i) = 0 :=
    if_pos ⟨hstart, hin⟩
  rw [Hash.free_ckarray, Hash.alloc_ckarray, Hash.free_ckarray, hfirst, ite_self]

/-- Without new slots the count has gone down twice. -/
theorem realloc_count
    {backup : Word}
    (hnull : backup ≠ 0)
    (hnone : ((h.free (copyBytes mem backup sect (h.stride * prevlen.setWidth 64).toNat)
      sect prevlen).1.alloc newlen tryn).1 = none) :
    (h.realloc mem sect prevlen newlen backup tryn).2.1.count =
      h.count - prevlen - h.copyPages prevlen := by
  have hcount := alloc_count_of_none hnone
  rw [Hash.realloc, if_neg hnull]
  dsimp only
  rw [Hash.free, hcount]
  rfl

/-- The pages of a copy that can be made. -/
theorem copyPages_toNat
    (hbytes : prevlen.toNat * h.stride.toNat < 2 ^ 32) :
    (h.copyPages prevlen).toNat = prevlen.toNat * h.stride.toNat / 4096 + 1 := by
  have hprev := prevlen.isLt
  have hbytes' : (h.stride * prevlen.setWidth 64).toNat = prevlen.toNat * h.stride.toNat := by
    rw [BitVec.toNat_mul, BitVec.toNat_setWidth, Nat.mod_eq_of_lt (by omega : prevlen.toNat < 2 ^ 64),
      Nat.mul_comm, Nat.mod_eq_of_lt (by omega)]
  have h4096 : (4096 : Word).toNat = 4096 := rfl
  have hone : (1 : Word).toNat = 1 := rfl
  rw [Hash.copyPages, BitVec.toNat_setWidth, BitVec.toNat_add, BitVec.toNat_udiv, hbytes',
    h4096, hone]
  omega

/-- **A section for which there are no new slots is lost.** -/
theorem not_sectionKept
    {backup : Word}
    (hlive : LiveSection h sect prevlen)
    (hnull : backup ≠ 0)
    (hbytes : prevlen.toNat * h.stride.toNat < 2 ^ 32)
    (hnone : ((h.free (copyBytes mem backup sect (h.stride * prevlen.setWidth 64).toNat)
      sect prevlen).1.alloc newlen tryn).1 = none)
    (hhash : r.hash = (h.realloc mem sect prevlen newlen backup tryn).2.1) :
    ¬ SectionKept h mem sect prevlen r := by
  intro hkept
  have hprev := prevlen.isLt
  have hlength := h.length.isLt
  have hinside := hlive.inside
  have hpages := copyPages_toNat hbytes
  have hcount := hkept.count
  rw [hhash, realloc_count hnull hnone] at hcount
  -- the count can only be restored by a wrap, which a section this long does not leave unmarked
  have hwrap : 2 ^ 32 ≤ prevlen.toNat + (h.copyPages prevlen).toNat := by
    have hvalue := congrArg BitVec.toNat hcount
    rw [BitVec.toNat_sub, BitVec.toNat_sub] at hvalue
    have hcountlt := h.count.isLt
    have hpos : 0 < (h.copyPages prevlen).toNat := by omega
    omega
  have hlong : h.slotOf sect < prevlen.toNat := by omega
  have hmark := hkept.marks (h.slotOf sect) (Nat.le_refl _) (by omega)
  rw [hhash, realloc_ckarray hnull (Nat.le_refl _) hlong] at hmark
  exact hmark rfl

/-- **The frames of the copy stay in use.** -/
theorem not_sectionResized
    {backup ret : Word} {live : List (Word × Half)}
    (hmalloc : malloc memlen fuel table (h.copyPages prevlen) Pag.SMALLPAGE =
      some (backup, r.table))
    (hbytes : prevlen.toNat * h.stride.toNat < 2 ^ 32) :
    ¬ SectionResized h memlen table mem live sect prevlen newlen ret r := by
  intro hresized
  obtain ⟨hfind, htable⟩ := malloc_eq_some hmalloc
  have hpages : h.copyPages prevlen ≠ 0 := by
    intro hzero
    have hvalue := copyPages_toNat hbytes
    rw [hzero] at hvalue
    simp at hvalue
  have hframe : ∃ n, n ∈ pageFrames backup (h.copyPages prevlen) Pag.SMALLPAGE ∧
      n ∈ touched backup (h.copyPages prevlen) :=
    exists_frame_touched (getFreeIdentity_toNat_lt hfind) hpages
  obtain ⟨n, hn, htouched⟩ := hframe
  refine hresized.released fuel backup r.table hmalloc n hn ?_
  rw [htable, usedFrames_set]
  exact Or.inr htouched

/-- **`realloc` is right exactly when `malloc` has no room for the copy.** -/
theorem pool_realloc_right_iff
    (h : Hash) (memlen : Half) (table : RamTable) (mem : ByteMemory)
    (live : List (Word × Half)) (sect : Word) (prevlen newlen : Half) (tryn : Word)
    (hlive : LiveSection h sect prevlen) :
    ReallocRight h memlen table mem live sect prevlen newlen tryn ↔
      ∃ fuel marked,
        malloc memlen fuel table (h.copyPages prevlen) Pag.SMALLPAGE = some (0, marked) := by
  constructor
  · rintro ⟨fuel, r, hr, hright⟩
    obtain ⟨backup, hmalloc, hrealloc, hreached⟩ := reallocLoop_eq_some hr
    by_cases hnull : backup = 0
    · subst hnull
      exact ⟨fuel, r.table, hmalloc⟩
    · obtain ⟨hbytes, hret⟩ := hreached hnull
      have hhash : r.hash = (h.realloc mem sect prevlen newlen backup tryn).2.1 := by
        rw [hrealloc]
      cases hfound : r.ret with
      | none =>
          rw [hfound] at hright
          exact absurd hright
            (not_sectionKept hlive hnull hbytes (hret.symm.trans hfound) hhash)
      | some ret =>
          rw [hfound] at hright
          exact absurd hright (not_sectionResized hmalloc hbytes)
  · rintro ⟨fuel, marked, hmalloc⟩
    refine ⟨fuel, ⟨none, marked, h, mem⟩, ?_, hlive.marked, rfl, fun _ _ => rfl⟩
    rw [Hash.reallocLoop, hmalloc]
    rfl

end Spec

theorem liveSection_fourPointers : LiveSection Hash.fourPointers 4096 1 := by
  have hslot : Hash.fourPointers.slotOf 4096 = 0 := by decide
  refine ⟨by decide, fun i hi hi' => ?_⟩
  have hone : (1 : Half).toNat = 1 := rfl
  have hzero : i = 0 := by omega
  subst hzero
  decide

/-- In a machine without frames the first pointer stays where it is. -/
theorem pool_realloc_right_iff_noMemory :
    ReallocRight Hash.fourPointers 0 (fun _ => 0) (fun _ => 0) [] 4096 1 2 0 :=
  (pool_realloc_right_iff Hash.fourPointers 0 (fun _ => 0) (fun _ => 0) [] 4096 1 2 0
    liveSection_fourPointers).mpr ⟨1, _, rfl⟩

/-- **With frames the copy is made and never given back.** -/
theorem realloc_keeps_copy :
    ¬ ReallocRight Hash.fourPointers 4096 (fun _ => 0) (fun _ => 0) [] 4096 1 2 0 := by
  rintro ⟨fuel, r, hr, hright⟩
  obtain ⟨backup, hmalloc, hrealloc, hreached⟩ := reallocLoop_eq_some hr
  have hpages : Hash.fourPointers.copyPages 1 = 1 := by decide
  have hbackup : backup = 0x120000#64 := by
    have hfind := (malloc_eq_some hmalloc).1
    rw [hpages] at hfind
    exact Loops.run_unique hfind getFreeIdentity_empty
  have hnull : backup ≠ 0 := by rw [hbackup]; decide
  obtain ⟨hbytes, hret⟩ := hreached hnull
  cases hfound : r.ret with
  | none =>
      rw [hfound] at hright
      exact not_sectionKept liveSection_fourPointers hnull hbytes (hret.symm.trans hfound)
        (by rw [hrealloc]) hright
  | some ret =>
      rw [hfound] at hright
      exact not_sectionResized hmalloc hbytes hright

end Kontrol
end BestKernel
