import BestKernel.Library.Words
import Mathlib.Tactic.SplitIfs

/-!
# Slot pools

`Hash`, the class behind every table of the kernel: a pool of slots, one
`ckarray` byte a slot, and a count of the slots taken.  `Kingptr`, `Kingprocess`
and the others only take the calendar around it.

Pointers are counted in bytes, so `this->pool + sizeof(this->pool)*i` is eight
bytes times the index, and `sizeof(this->pool*)`, the size of a slot, is
`stride`.  `ckarray` is a function on the slot numbers.  In `alloc` the brace
behind `this->pool = tryn;` is read as not there, as the indentation has it, and
`tryn` as what the pool of pointers answered: 0 for a refusal, the new address
otherwise.  In `realloc` the calls `pool_free` and `pool_alloc` are those of the
class under their older names, and `free(backup,lel)` is the member of the class.
-/

namespace BestKernel
namespace Kontrol

open Machine

/-- `enum hashtypes`. -/
inductive HashType where
  | POINTER
  | DOUBLE_POINTER
deriving DecidableEq, Repr

structure Hash where
  type : HashType
  length : Half
  count : Half
  ckarray : Nat → Byte
  pool : Word
  stride : Word

namespace Hash

/-- The loop of `alloc`, with `left` slots to look at from `i` on and the streak
`g` so far: the slot at which the streak has the length asked for. -/
def allocLoop (ckarray : Nat → Byte) (reqlen : Half) : Nat → Nat → Half → Option Nat
  | 0, _, _ => none
  | left + 1, i, g =>
      let g := if ckarray i = 0 then g + 1 else 0
      if g = reqlen then some i else allocLoop ckarray reqlen left (i + 1) g

/-- The pointer returned, `none` for `NULLPTR`, and the pool. -/
def alloc (h : Hash) (reqlen : Half) (tryn : Word) : Option Word × Hash :=
  match allocLoop h.ckarray reqlen h.length.toNat 0 0 with
  | some i =>
      (some (h.pool + 8#64 * BitVec.ofNat 64 i), { h with count := h.count + reqlen })
  | none =>
      if h.type = .DOUBLE_POINTER ∧ tryn ≠ 0 then
        (none, { h with pool := tryn, length := h.length + reqlen })
      else (none, h)

/-- The slot of a section. -/
def slotOf (h : Hash) (sect : Word) : Nat :=
  (((sect - h.pool) / h.stride).setWidth 32).toNat

/-- `ckarray[g] = 0` for `left` slots from `g` on. -/
def clearSlots (ckarray : Nat → Byte) : Nat → Nat → Nat → Byte
  | 0, _ => ckarray
  | left + 1, g => clearSlots (Function.update ckarray g 0) left (g + 1)

/-- The loop clears the slots from that of the section up to slot `length`. -/
def free (h : Hash) (mem : ByteMemory) (sect : Word) (length : Half) :
    Hash × ByteMemory :=
  let g := h.slotOf sect
  ({ h with
      ckarray := clearSlots h.ckarray (length.toNat - g) g
      count := h.count - length },
    fillBytes mem sect 0 (length.toNat * h.stride.toNat))

/-- `backup` is what `malloc` returned. -/
def realloc (h : Hash) (mem : ByteMemory) (sect : Word) (prevlen newlen : Half)
    (backup tryn : Word) : Word × Hash × ByteMemory :=
  let lel := (h.stride * prevlen.setWidth 64 / 4096 + 1).setWidth 32
  if backup = 0 then (backup, h, mem)
  else
    let bytes := (h.stride * prevlen.setWidth 64).toNat
    let mem := copyBytes mem backup sect bytes
    let (h, mem) := h.free mem sect prevlen
    let (found, h) := h.alloc newlen tryn
    let ret := found.getD 0
    let mem := copyBytes mem ret backup bytes
    let (h, mem) := h.free mem backup lel
    (ret, h, mem)

end Hash

/-- `Kingthread::pool_alloc`: the pool of threads marks what it hands out, at
the offset of `taken` in a thread, null pointer or not. -/
def kingthreadPoolAlloc (h : Hash) (mem : ByteMemory) (taken : Word) (reqlen : Half)
    (tryn : Word) : Option Word × Hash × ByteMemory :=
  let (found, h) := h.alloc reqlen tryn
  (found, h, Function.update mem (found.getD 0 + taken) 255)

section Spec

variable {h : Hash} {ckarray : Nat → Byte}

theorem Hash.clearSlots_apply (left g i : Nat) :
    Hash.clearSlots ckarray left g i =
      if g ≤ i ∧ i < g + left then 0 else ckarray i := by
  induction left generalizing ckarray g with
  | zero =>
      rw [Hash.clearSlots, if_neg (by omega)]
  | succ left ih =>
      rw [Hash.clearSlots, ih, Function.update_apply]
      split_ifs <;> first | rfl | omega

theorem Hash.free_ckarray
    (mem : ByteMemory) (sect : Word) (length : Half) (i : Nat) :
    (h.free mem sect length).1.ckarray i =
      if h.slotOf sect ≤ i ∧ i < length.toNat then 0 else h.ckarray i := by
  rw [Hash.free]
  dsimp only
  rw [Hash.clearSlots_apply]
  split_ifs <;> first | rfl | omega

/-- `alloc` marks nothing. -/
theorem Hash.alloc_ckarray
    (reqlen : Half) (tryn : Word) :
    (h.alloc reqlen tryn).2.ckarray = h.ckarray := by
  rw [Hash.alloc]
  split
  · rfl
  · split_ifs <;> rfl

/-- The marks are the same, but for that of slot 0, which may be gone. -/
structure SameMarks (ckarray ckarray' : Nat → Byte) : Prop where
  others : ∀ i, i ≠ 0 → ckarray' i = ckarray i
  first : ckarray' 0 = ckarray 0 ∨ ckarray' 0 = 0

theorem SameMarks.refl (ckarray : Nat → Byte) : SameMarks ckarray ckarray :=
  ⟨fun _ _ => rfl, .inl rfl⟩

theorem SameMarks.trans
    {ckarray' ckarray'' : Nat → Byte}
    (h : SameMarks ckarray ckarray')
    (h' : SameMarks ckarray' ckarray'') :
    SameMarks ckarray ckarray'' where
  others := fun i hi => (h'.others i hi).trans (h.others i hi)
  first := h'.first.elim (fun hsame => h.first.imp hsame.trans hsame.trans) .inr

/-- A section of one slot that is given back is unmarked if it is slot 0, and in no other
case. -/
theorem Hash.free_sameMarks
    (mem : ByteMemory) (sect : Word) :
    SameMarks h.ckarray (h.free mem sect 1).1.ckarray := by
  have hone : (1 : Half).toNat = 1 := rfl
  refine ⟨fun i hi => ?_, ?_⟩
  · rw [Hash.free_ckarray, hone, if_neg (by omega)]
  · rw [Hash.free_ckarray, hone]
    split_ifs
    · exact .inr rfl
    · exact .inl rfl

/-- The streak grows over free slots. -/
theorem Hash.allocLoop_free
    {reqlen : Half} :
    ∀ {left i : Nat} {g : Half},
      (∀ j, i ≤ j → j < i + left → ckarray j = 0) →
      g.toNat < reqlen.toNat →
      (Hash.allocLoop ckarray reqlen left i g = none ↔
        g.toNat + left < reqlen.toNat)
  | 0, i, g, _, hg => by simp [Hash.allocLoop, hg]
  | left + 1, i, g, hfree, hg => by
      have hlt := reqlen.isLt
      have hnext : (g + 1).toNat = g.toNat + 1 := by
        have hone : (1 : Half).toNat = 1 := rfl
        rw [BitVec.toNat_add, hone]
        exact Nat.mod_eq_of_lt (by omega)
      rw [Hash.allocLoop, if_pos (hfree i (Nat.le_refl i) (by omega))]
      split_ifs with heq
      · have heq' := congrArg BitVec.toNat heq
        rw [hnext] at heq'
        simp only [false_iff]
        omega
      · have hne : (g + 1).toNat ≠ reqlen.toNat :=
          fun h' => heq (BitVec.eq_of_toNat_eq h')
        rw [Hash.allocLoop_free (fun j hj hj' => hfree j (by omega) (by omega))
          (by omega), hnext]
        omega

/-- A pool without a taken slot refuses exactly what exceeds its length. -/
theorem Hash.allocLoop_empty
    {reqlen : Half}
    (hfree : ∀ i, i < h.length.toNat → h.ckarray i = 0)
    (hreq : 1 ≤ reqlen.toNat) :
    Hash.allocLoop h.ckarray reqlen h.length.toNat 0 0 = none ↔
      h.length.toNat < reqlen.toNat := by
  have hloop : Hash.allocLoop h.ckarray reqlen h.length.toNat 0 0 = none ↔
      (0 : Half).toNat + h.length.toNat < reqlen.toNat :=
    Hash.allocLoop_free (fun j _ hj => hfree j (by omega)) hreq
  simpa using hloop

end Spec

end Kontrol
end BestKernel
