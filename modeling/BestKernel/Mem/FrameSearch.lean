import BestKernel.Mem.Bitmap

/-!
# Where the frame searches go

A round of `get_free_identity` or `get_free_phys` looks at one bit of an element of
the table: `bit<<=2` takes it through the sixteen even bits and then to 0, and the
next round starts with the following element.  So the rounds are numbered by a
place, sixteen of them for an element.  From a free bit a search goes to the next
place; from a used one it goes to another element, `leap`.

Up to the element `stride + 1` a leap never goes back, so a search ends.  A used bit
in the element `stride + 2` sends it back to `stride + 1`, and with free bits in
between it never ends.  The element may be a byte or 32 bits wide (`Cells`).
-/

namespace BestKernel
namespace Mem

open Machine

/-- The elements of `phys_ram_table`, whatever their width. -/
abbrev Cells := Nat → Half

/-- The table read as bytes. -/
def byteCells (table : RamTable) : Cells :=
  fun i => (table i).setWidth 32

section Search

variable (memlen : Half) (cells : Cells) (pages_number : Half) (pagetype : Nat)

/-- The test of the table. -/
def Cursor.Used (c : Cursor) : Prop :=
  cells c.indexer.toNat &&& c.bit ≠ 0

instance (c : Cursor) : Decidable (c.Used cells) :=
  inferInstanceAs (Decidable (_ ≠ _))

/-- `Cursor.advance` for any width of the elements. -/
def Cursor.advanceOver (multiplier : Half) (c : Cursor) : Cursor :=
  if c.Used cells then ⟨jump multiplier c.indexer, c.bit <<< 2, 0⟩
  else ⟨c.indexer, c.bit <<< 2, c.gate + 1⟩

def identityRoundOver (c : Cursor) : Cursor ⊕ Word :=
  let multiplier := multiplierOf pagetype
  if ¬ c.indexer < memlen / 8 then .inr 0
  else if c.wrap.gate = multiplier * pages_number then
    .inr (c.wrap.address multiplier)
  else .inl (c.wrap.advanceOver cells multiplier)

def searchIdentity (fuel : Nat) : Option Word :=
  Loops.run (identityRoundOver memlen cells pages_number pagetype) fuel Cursor.start

def physRoundOver (s : Cursor × List Word) : Cursor × List Word ⊕ Nat × List Word :=
  let (c, physrets) := s
  let multiplier := multiplierOf pagetype
  if ¬ c.indexer < memlen / 8 then .inr (1, physrets)
  else
    let physrets :=
      if c.wrap.gate = multiplier then physrets ++ [c.wrap.address multiplier]
      else physrets
    if BitVec.ofNat 32 physrets.length = pages_number then .inr (0, physrets)
    else .inl (c.wrap.advanceOver cells multiplier, physrets)

def searchPhys (fuel : Nat) : Option (Nat × List Word) :=
  Loops.run (physRoundOver memlen cells pages_number pagetype) fuel (Cursor.start, [])

/-- Both searches return. -/
def SearchesEnd : Prop :=
  (∃ fuel r, searchIdentity memlen cells pages_number pagetype fuel = some r) ∧
    ∃ fuel r, searchPhys memlen cells pages_number pagetype fuel = some r

/-- A round that meets a used bit and goes on at an earlier element. -/
def Cursor.JumpsBack (c : Cursor) : Prop :=
  c.indexer < memlen / 8 ∧ c.wrap.Used cells ∧
    jump (multiplierOf pagetype) c.wrap.indexer < c.wrap.indexer

/-- No round of either search jumps back. -/
structure StaysForward : Prop where
  identity :
    ∀ c, Loops.Reaches (identityRoundOver memlen cells pages_number pagetype) Cursor.start c →
      ¬ c.JumpsBack memlen cells pagetype
  phys :
    ∀ s, Loops.Reaches (physRoundOver memlen cells pages_number pagetype) (Cursor.start, []) s →
      ¬ s.1.JumpsBack memlen cells pagetype

end Search

/-- Over bytes these are the searches of the kernel. -/
theorem searchIdentity_byteCells
    (memlen : Half) (table : RamTable) (pages_number : Half) (pagetype fuel : Nat) :
    searchIdentity memlen (byteCells table) pages_number pagetype fuel =
      getFreeIdentity memlen table pages_number pagetype fuel := by
  rfl

theorem searchPhys_byteCells
    (memlen : Half) (table : RamTable) (pages_number : Half) (pagetype fuel : Nat) :
    searchPhys memlen (byteCells table) pages_number pagetype fuel =
      getFreePhys memlen table pages_number pagetype fuel := by
  rfl

section Places

/-- The elements that a page takes up in units of the searches. -/
def strideOf (pagetype : Nat) : Nat :=
  getMultiFromPagetype pagetype / 8

/-- Where a used bit of an element sends a search. -/
def leap (stride i : Nat) : Nat :=
  if i % stride = 0 then i + stride else i / stride + stride

/-- The cursor before the round at a place. -/
def cursorAt (p : Nat) (gate : Half) : Cursor :=
  ⟨BitVec.ofNat 32 ((p - 1) / 16),
    if p = 0 then 1 else BitVec.ofNat 32 (4 ^ ((p - 1) % 16 + 1)), gate⟩

/-- The same cursor once it is wrapped. -/
def placedAt (p : Nat) (gate : Half) : Cursor :=
  ⟨BitVec.ofNat 32 (p / 16), BitVec.ofNat 32 (4 ^ (p % 16)), gate⟩

/-- The bit at a place is set. -/
def UsedAt (cells : Cells) (p : Nat) : Prop :=
  cells (p / 16) &&& BitVec.ofNat 32 (4 ^ (p % 16)) ≠ 0

instance (cells : Cells) (p : Nat) : Decidable (UsedAt cells p) :=
  inferInstanceAs (Decidable (_ ≠ _))

/-- The place after a used bit. -/
def leapFrom (stride p : Nat) : Nat :=
  16 * leap stride (p / 16) + p % 16 + 1

theorem strideOf_cases (pagetype : Nat) :
    strideOf pagetype = 512 ∨ strideOf pagetype = 262144 ∨
      strideOf pagetype = 134217728 := by
  unfold strideOf getMultiFromPagetype
  split_ifs <;> simp

theorem getMulti_eq_strideOf (pagetype : Nat) :
    getMultiFromPagetype pagetype = 8 * strideOf pagetype := by
  unfold strideOf getMultiFromPagetype
  split_ifs <;> rfl

theorem multiplierOf_toNat (pagetype : Nat) :
    (multiplierOf pagetype).toNat = 8 * strideOf pagetype := by
  unfold multiplierOf strideOf getMultiFromPagetype
  split_ifs <;> rfl

@[simp] theorem cursorAt_zero : cursorAt 0 0 = Cursor.start := by
  rfl

theorem wrap_cursorAt
    (p : Nat) (gate : Half) :
    (cursorAt p gate).wrap = placedAt p gate := by
  rcases p with _ | p
  · rfl
  · have hzero := ofNat_four_pow_eq_zero_iff (p % 16 + 1) (by omega)
    by_cases hlast : p % 16 = 15
    · have hindex : (p + 1) / 16 = p / 16 + 1 := by omega
      have hbit : (p + 1) % 16 = 0 := by omega
      simp [cursorAt, placedAt, Cursor.wrap, hlast, hindex, hbit, BitVec.ofNat_add]
    · have hindex : (p + 1) / 16 = p / 16 := by omega
      have hbit : (p + 1) % 16 = p % 16 + 1 := by omega
      have hnonzero : ¬ BitVec.ofNat 32 (4 ^ (p % 16 + 1)) = 0 := by
        intro h
        have := hzero.mp h
        omega
      rw [cursorAt, placedAt, Cursor.wrap, hindex, hbit]
      simp only [Nat.succ_ne_zero, if_false, Nat.add_sub_cancel, if_neg hnonzero]

theorem gate_succ (g : Nat) : BitVec.ofNat 32 g + 1 = (BitVec.ofNat 32 (g + 1) : Half) :=
  (BitVec.ofNat_add g 1).symm

theorem leap_lt
    {stride i : Nat}
    (hi : i < 536870912) :
    leap stride i < 536870912 + stride := by
  have hquotient := Nat.div_le_self i stride
  unfold leap
  split_ifs <;> omega

theorem stride_le_leap (stride i : Nat) : stride ≤ leap stride i := by
  unfold leap
  split_ifs
  · exact Nat.le_add_left stride i
  · exact Nat.le_add_left stride _

/-- From the element `stride` on a leap leads behind it. -/
theorem stride_lt_leap
    {stride i : Nat}
    (hstride : 0 < stride)
    (hi : stride ≤ i) :
    stride + 1 ≤ leap stride i := by
  have hquotient : 1 ≤ i / stride :=
    (Nat.one_le_div_iff hstride).mpr hi
  unfold leap
  split_ifs <;> omega

/-- Up to `stride + 1` a leap goes forward. -/
theorem le_leap
    {stride i : Nat}
    (hstride : 0 < stride)
    (hi : i ≤ stride + 1) :
    i ≤ leap stride i := by
  unfold leap
  split_ifs with hmultiple
  · exact Nat.le_add_right i stride
  · rcases Nat.lt_or_ge i stride with hlt | hge
    · exact Nat.le_trans (Nat.le_of_lt hlt) (Nat.le_add_left stride _)
    · have hleap := stride_lt_leap hstride hge
      rw [leap, if_neg hmultiple] at hleap
      omega

theorem jump_eq
    {pagetype i : Nat}
    (hi : i < 536870912) :
    jump (multiplierOf pagetype) (BitVec.ofNat 32 i) =
      BitVec.ofNat 32 (leap (strideOf pagetype) i) := by
  have hstride := strideOf_cases pagetype
  have hleap : leap (strideOf pagetype) i < 536870912 + strideOf pagetype := leap_lt hi
  have hmultiplier := multiplierOf_toNat pagetype
  have hquotient := Nat.div_le_self i (strideOf pagetype)
  have height : (BitVec.ofNat 32 i * 8 : Half).toNat = 8 * i := by
    simp
    omega
  have hindex : (BitVec.ofNat 32 i : Half).toNat = i := by
    simp
    omega
  have hmultiple :
      BitVec.ofNat 32 i * 8 % multiplierOf pagetype = 0 ↔ i % strideOf pagetype = 0 := by
    rw [← BitVec.toNat_inj, BitVec.toNat_umod, height, hmultiplier, Nat.mul_mod_mul_left]
    exact Nat.mul_eq_zero.trans (or_iff_right (by decide))
  have hcount : (multiplierOf pagetype / 8).toNat = strideOf pagetype := by
    rw [BitVec.toNat_udiv, hmultiplier]
    exact Nat.mul_div_cancel_left _ (by decide)
  apply BitVec.eq_of_toNat_eq
  rw [BitVec.toNat_ofNat, Nat.mod_eq_of_lt (by omega)]
  unfold jump leap
  unfold leap at hleap
  by_cases hm : i % strideOf pagetype = 0
  · rw [if_pos hm] at hleap
    rw [if_pos (hmultiple.mpr hm), if_pos hm, BitVec.toNat_add, hindex, hcount,
      Nat.mod_eq_of_lt (by omega)]
  · rw [if_neg hm] at hleap
    rw [if_neg (fun h => hm (hmultiple.mp h)), if_neg hm, BitVec.toNat_add,
      BitVec.toNat_udiv, hindex, hcount, Nat.mod_eq_of_lt (by omega)]

theorem used_placedAt
    {p : Nat}
    (cells : Cells) (gate : Half)
    (hp : p / 16 < 536870912) :
    (placedAt p gate).Used cells ↔ UsedAt cells p := by
  have hindex : (BitVec.ofNat 32 (p / 16) : Half).toNat = p / 16 := by
    simp
    omega
  rw [Cursor.Used, UsedAt, placedAt, hindex]

/-- What a round does to its cursor. -/
theorem advance_placedAt
    {p : Nat}
    (cells : Cells) (pagetype : Nat) (gate : Half)
    (hp : p / 16 < 536870912) :
    (placedAt p gate).advanceOver cells (multiplierOf pagetype) =
      if UsedAt cells p then cursorAt (leapFrom (strideOf pagetype) p) 0
      else cursorAt (p + 1) (gate + 1) := by
  have hbit := ofNat_four_pow_shift (p % 16) (Nat.mod_lt _ (by decide))
  unfold Cursor.advanceOver
  split_ifs with hcursor hused hused
  · have hindex : (16 * leap (strideOf pagetype) (p / 16) + p % 16) / 16 =
        leap (strideOf pagetype) (p / 16) := by
      omega
    have hphase : (16 * leap (strideOf pagetype) (p / 16) + p % 16) % 16 = p % 16 := by
      omega
    simp only [placedAt, cursorAt, leapFrom, jump_eq hp, hbit, Nat.succ_ne_zero, if_false,
      Nat.add_sub_cancel, hindex, hphase]
  · exact absurd ((used_placedAt cells gate hp).mp hcursor) hused
  · exact absurd ((used_placedAt cells gate hp).mpr hused) hcursor
  · simp only [placedAt, cursorAt, hbit, Nat.succ_ne_zero, if_false, Nat.add_sub_cancel]

/-- The test of the loop at a place. -/
theorem cursorAt_inside
    {p : Nat}
    (memlen : Half) (gate : Half)
    (hp : (p - 1) / 16 < 4294967296) :
    (cursorAt p gate).indexer < memlen / 8 ↔ (p - 1) / 16 < memlen.toNat / 8 := by
  rw [BitVec.lt_def, BitVec.toNat_udiv, cursorAt, BitVec.toNat_ofNat, Nat.mod_eq_of_lt hp]
  rfl

end Places

section Rounds

variable {memlen pages_number : Half} {cells : Cells} {pagetype p : Nat}

theorem cursorAt_outside
    (gate : Half)
    (hp : (p - 1) / 16 < 4294967296)
    (hout : ¬ (p - 1) / 16 < memlen.toNat / 8) :
    ¬ (cursorAt p gate).indexer < memlen / 8 := by
  rw [cursorAt_inside memlen gate hp]
  exact hout

theorem identityRoundOver_outside
    (cells : Cells) (pages_number : Half) (pagetype : Nat) (gate : Half)
    (hp : (p - 1) / 16 < 4294967296)
    (hout : ¬ (p - 1) / 16 < memlen.toNat / 8) :
    identityRoundOver memlen cells pages_number pagetype (cursorAt p gate) = .inr 0 := by
  exact if_pos (cursorAt_outside gate hp hout)

theorem physRoundOver_outside
    (cells : Cells) (pages_number : Half) (pagetype : Nat) (gate : Half)
    (physrets : List Word)
    (hp : (p - 1) / 16 < 4294967296)
    (hout : ¬ (p - 1) / 16 < memlen.toNat / 8) :
    physRoundOver memlen cells pages_number pagetype (cursorAt p gate, physrets) =
      .inr (1, physrets) := by
  exact if_pos (cursorAt_outside gate hp hout)

/-- In the loop a round meets an element below `2^29`. -/
theorem place_lt
    (hin : (p - 1) / 16 < memlen.toNat / 8) :
    p / 16 < 536870912 := by
  have := memlen.isLt
  omega

theorem identityRoundOver_inside
    (cells : Cells) (pages_number : Half) (pagetype : Nat) (gate : Half)
    (hin : (p - 1) / 16 < memlen.toNat / 8) :
    identityRoundOver memlen cells pages_number pagetype (cursorAt p gate) =
      if gate = multiplierOf pagetype * pages_number then
        .inr ((placedAt p gate).address (multiplierOf pagetype))
      else if UsedAt cells p then .inl (cursorAt (leapFrom (strideOf pagetype) p) 0)
      else .inl (cursorAt (p + 1) (gate + 1)) := by
  have hp := place_lt hin
  have hcursor := (cursorAt_inside memlen gate (by omega)).mpr hin
  unfold identityRoundOver
  simp only [wrap_cursorAt, not_not.mpr hcursor, if_false, advance_placedAt cells pagetype gate hp]
  rw [show (placedAt p gate).gate = gate from rfl]
  split_ifs <;> rfl

/-- What a round of `get_free_phys` has found when it looks at the number. -/
def foundAt (pagetype p : Nat) (gate : Half) (physrets : List Word) : List Word :=
  if gate = multiplierOf pagetype then
    physrets ++ [(placedAt p gate).address (multiplierOf pagetype)]
  else physrets

theorem physRoundOver_inside
    (cells : Cells) (pages_number : Half) (pagetype : Nat) (gate : Half)
    (physrets : List Word)
    (hin : (p - 1) / 16 < memlen.toNat / 8) :
    physRoundOver memlen cells pages_number pagetype (cursorAt p gate, physrets) =
      if BitVec.ofNat 32 (foundAt pagetype p gate physrets).length = pages_number then
        .inr (0, foundAt pagetype p gate physrets)
      else if UsedAt cells p then
        .inl (cursorAt (leapFrom (strideOf pagetype) p) 0, foundAt pagetype p gate physrets)
      else .inl (cursorAt (p + 1) (gate + 1), foundAt pagetype p gate physrets) := by
  have hp := place_lt hin
  have hcursor := (cursorAt_inside memlen gate (by omega)).mpr hin
  unfold physRoundOver foundAt
  simp only [wrap_cursorAt, not_not.mpr hcursor, if_false, advance_placedAt cells pagetype gate hp]
  rw [show (placedAt p gate).gate = gate from rfl]
  split_ifs <;> rfl

/-- A jump that does not go back leads to a later place. -/
theorem lt_leapFrom
    (gate : Half)
    (hin : (p - 1) / 16 < memlen.toNat / 8)
    (hused : UsedAt cells p)
    (hforward : ¬ (cursorAt p gate).JumpsBack memlen cells pagetype) :
    p < leapFrom (strideOf pagetype) p := by
  have hp := place_lt hin
  have hstride := strideOf_cases pagetype
  have hleap : leap (strideOf pagetype) (p / 16) < 536870912 + strideOf pagetype := leap_lt hp
  have hge : p / 16 ≤ leap (strideOf pagetype) (p / 16) := by
    by_contra hback
    apply hforward
    refine ⟨(cursorAt_inside memlen gate (by omega)).mpr hin, ?_, ?_⟩
    · rw [wrap_cursorAt]
      exact (used_placedAt cells gate hp).mpr hused
    · rw [wrap_cursorAt, placedAt, jump_eq hp, BitVec.lt_def, BitVec.toNat_ofNat,
        BitVec.toNat_ofNat, Nat.mod_eq_of_lt (by omega), Nat.mod_eq_of_lt (by omega)]
      omega
  unfold leapFrom
  omega

/-- After a jump the element is still a `ustd_t`. -/
theorem leapFrom_lt
    (hin : (p - 1) / 16 < memlen.toNat / 8) :
    (leapFrom (strideOf pagetype) p - 1) / 16 < 4294967296 := by
  have hp := place_lt hin
  have hstride := strideOf_cases pagetype
  have hleap : leap (strideOf pagetype) (p / 16) < 536870912 + strideOf pagetype := leap_lt hp
  unfold leapFrom
  omega

end Rounds

section Termination

variable (memlen : Half) (cells : Cells) (pages_number : Half) (pagetype : Nat)

/-- The cursor at a place, with a gate. -/
def cursorOf (t : Nat × Half) : Cursor :=
  cursorAt t.1 t.2

theorem identity_ends
    (hforward : StaysForward memlen cells pages_number pagetype) :
    ∃ fuel r, searchIdentity memlen cells pages_number pagetype fuel = some r := by
  refine Loops.ends_of_measure (f := cursorOf) (t := (0, 0))
    (I := fun t => (t.1 - 1) / 16 < 4294967296 ∧
      Loops.Reaches (identityRoundOver memlen cells pages_number pagetype)
        Cursor.start (cursorOf t))
    (fun t => 16 * (memlen.toNat / 8) + 1 - t.1) ?_ ⟨by decide, .here _⟩
  rintro ⟨p, gate⟩ ⟨hp, hreached⟩
  by_cases hin : (p - 1) / 16 < memlen.toNat / 8
  · have hround := identityRoundOver_inside cells pages_number pagetype gate hin
    dsimp only at hp
    split_ifs at hround with hquota hused
    · exact .inl ⟨_, hround⟩
    · have hless := lt_leapFrom gate hin hused (hforward.identity _ hreached)
      refine .inr ⟨(leapFrom (strideOf pagetype) p, 0), hround,
        ⟨leapFrom_lt hin, hreached.trans (.next hround (.here _))⟩, ?_⟩
      dsimp only
      omega
    · refine .inr ⟨(p + 1, gate + 1), hround,
        ⟨?_, hreached.trans (.next hround (.here _))⟩, ?_⟩ <;> dsimp only
      · have := place_lt hin
        omega
      · omega
  · exact .inl ⟨0, identityRoundOver_outside cells pages_number pagetype gate hp hin⟩

theorem phys_ends
    (hforward : StaysForward memlen cells pages_number pagetype) :
    ∃ fuel r, searchPhys memlen cells pages_number pagetype fuel = some r := by
  refine Loops.ends_of_measure
    (f := fun t : (Nat × Half) × List Word => (cursorOf t.1, t.2)) (t := ((0, 0), []))
    (I := fun t => (t.1.1 - 1) / 16 < 4294967296 ∧
      Loops.Reaches (physRoundOver memlen cells pages_number pagetype)
        (Cursor.start, []) (cursorOf t.1, t.2))
    (fun t => 16 * (memlen.toNat / 8) + 1 - t.1.1) ?_ ⟨by decide, .here _⟩
  rintro ⟨⟨p, gate⟩, physrets⟩ ⟨hp, hreached⟩
  by_cases hin : (p - 1) / 16 < memlen.toNat / 8
  · have hround := physRoundOver_inside cells pages_number pagetype gate physrets hin
    dsimp only at hp
    split_ifs at hround with hcount hused
    · exact .inl ⟨_, hround⟩
    · have hless := lt_leapFrom gate hin hused (hforward.phys _ hreached)
      refine .inr ⟨((leapFrom (strideOf pagetype) p, 0), _), hround,
        ⟨leapFrom_lt hin, hreached.trans (.next hround (.here _))⟩, ?_⟩
      dsimp only
      omega
    · refine .inr ⟨((p + 1, gate + 1), _), hround,
        ⟨?_, hreached.trans (.next hround (.here _))⟩, ?_⟩ <;> dsimp only
      · have := place_lt hin
        omega
      · omega
  · exact .inl ⟨(1, physrets), physRoundOver_outside cells pages_number pagetype gate physrets hp hin⟩

theorem searches_end_of_staysForward
    (hforward : StaysForward memlen cells pages_number pagetype) :
    SearchesEnd memlen cells pages_number pagetype :=
  ⟨identity_ends memlen cells pages_number pagetype hforward,
    phys_ends memlen cells pages_number pagetype hforward⟩

/-- The table has no element from which a search can go back. -/
def Short : Prop :=
  memlen.toNat / 8 ≤ strideOf pagetype + 1

/-- A place that the rounds of either search keep to. -/
def Placed (c : Cursor) : Prop :=
  ∃ p gate, c = cursorAt p gate ∧ (p - 1) / 16 < 4294967296

theorem placed_advanceOver
    {c : Cursor}
    (hplaced : Placed c)
    (hin : c.indexer < memlen / 8) :
    Placed (c.wrap.advanceOver cells (multiplierOf pagetype)) := by
  rcases hplaced with ⟨p, gate, rfl, hp⟩
  have hinside := (cursorAt_inside memlen gate hp).mp hin
  have hplace := place_lt hinside
  rw [wrap_cursorAt, advance_placedAt cells pagetype gate hplace]
  split_ifs
  · exact ⟨_, _, rfl, leapFrom_lt hinside⟩
  · exact ⟨_, _, rfl, by omega⟩

/-- In a short table no used bit sends a search back. -/
theorem not_jumpsBack_of_short
    {c : Cursor}
    (hshort : Short memlen pagetype)
    (hplaced : Placed c) :
    ¬ c.JumpsBack memlen cells pagetype := by
  rcases hplaced with ⟨p, gate, rfl, hp⟩
  rintro ⟨hin, -, hback⟩
  have hinside := (cursorAt_inside memlen gate hp).mp hin
  have hplace := place_lt hinside
  have hstride := strideOf_cases pagetype
  have hge : p / 16 ≤ leap (strideOf pagetype) (p / 16) := by
    refine le_leap (by omega) ?_
    unfold Short at hshort
    omega
  have hleap : leap (strideOf pagetype) (p / 16) < 536870912 + strideOf pagetype :=
    leap_lt hplace
  rw [wrap_cursorAt, placedAt, jump_eq hplace, BitVec.lt_def, BitVec.toNat_ofNat,
    BitVec.toNat_ofNat, Nat.mod_eq_of_lt (by omega), Nat.mod_eq_of_lt (by omega)] at hback
  omega

theorem staysForward_of_short
    (hshort : Short memlen pagetype) :
    StaysForward memlen cells pages_number pagetype := by
  have hstart : Placed Cursor.start := ⟨0, 0, rfl, by decide⟩
  constructor
  · intro c hreached
    refine not_jumpsBack_of_short memlen cells pagetype hshort
      (hreached.invariant (I := Placed) ?_ hstart)
    intro c c' hc hround
    unfold identityRoundOver at hround
    dsimp only at hround
    split_ifs at hround with hin hquota
    cases hround
    exact placed_advanceOver memlen cells pagetype hc hin
  · intro s hreached
    refine not_jumpsBack_of_short memlen cells pagetype hshort
      (hreached.invariant (I := fun s : Cursor × List Word => Placed s.1) ?_ hstart)
    rintro ⟨c, physrets⟩ s' hc hround
    unfold physRoundOver at hround
    dsimp only at hround hc
    split_ifs at hround with hin hgate hcount hcount
    all_goals
      cases hround
      exact placed_advanceOver memlen cells pagetype hc hin

/-- A search for no page ends at once. -/
theorem searches_end_of_no_pages : SearchesEnd memlen cells 0 pagetype := by
  have hplace : (0 - 1) / 16 < 4294967296 := by decide
  have hgate : ¬ (0 : Half) = multiplierOf pagetype :=
    fun h => multiplierOf_ne_zero pagetype h.symm
  constructor
  · refine ⟨1, ?_⟩
    by_cases hin : (0 - 1) / 16 < memlen.toNat / 8
    · have hround := identityRoundOver_inside cells 0 pagetype 0 hin
      rw [if_pos (by simp)] at hround
      exact ⟨_, Loops.run_exit hround 0⟩
    · exact ⟨_, Loops.run_exit (identityRoundOver_outside cells 0 pagetype 0 hplace hin) 0⟩
  · refine ⟨1, ?_⟩
    by_cases hin : (0 - 1) / 16 < memlen.toNat / 8
    · have hround := physRoundOver_inside cells 0 pagetype 0 [] hin
      have hfound : foundAt pagetype 0 0 [] = [] := if_neg hgate
      rw [hfound, if_pos (by simp)] at hround
      exact ⟨_, Loops.run_exit hround 0⟩
    · exact ⟨_, Loops.run_exit (physRoundOver_outside cells 0 pagetype 0 [] hplace hin) 0⟩

end Termination

section Trap

/-- Bit 0 of element 0 and of element `stride + 2`. -/
def trapTable (stride : Nat) : RamTable :=
  fun i => if i = 0 ∨ i = stride + 2 then 1 else 0

theorem usedAt_trapTable
    (stride p : Nat) :
    UsedAt (byteCells (trapTable stride)) p ↔ p = 0 ∨ p = 16 * (stride + 2) := by
  have hphase : p % 16 < 16 := Nat.mod_lt _ (by decide)
  have hbit : ∀ i, i < 16 → ((1 : Half) &&& BitVec.ofNat 32 (4 ^ i) ≠ 0 ↔ i = 0) := by
    decide
  unfold UsedAt byteCells trapTable
  by_cases helement : p / 16 = 0 ∨ p / 16 = stride + 2
  · rw [if_pos helement]
    rw [show (1 : Byte).setWidth 32 = (1 : Half) from rfl, hbit _ hphase]
    omega
  · rw [if_neg helement]
    simp only [BitVec.ofNat_eq_ofNat, BitVec.setWidth_zero, BitVec.zero_and, ne_eq,
      not_true_eq_false, false_iff]
    omega

variable {memlen pages_number : Half} {pagetype : Nat}

/-- Where a search of `trapTable` is, and what its gate has counted: at the start, or
between the element `stride` and bit 0 of `stride + 2`. -/
def Trapped (stride : Nat) (t : Nat × Nat) : Prop :=
  t = (0, 0) ∨ 16 * stride + 1 + t.2 ≤ t.1 ∧ t.1 ≤ 16 * (stride + 2)

/-- The two used bits lead to the elements `stride` and `stride + 1`. -/
theorem leapFrom_trapTable
    {p : Nat}
    (hused : UsedAt (byteCells (trapTable (strideOf pagetype))) p) :
    16 * strideOf pagetype + 1 ≤ leapFrom (strideOf pagetype) p ∧
      leapFrom (strideOf pagetype) p ≤ 16 * (strideOf pagetype + 2) := by
  rcases (usedAt_trapTable _ p).mp hused with rfl | rfl
  · have hleap : leap (strideOf pagetype) 0 = strideOf pagetype := by
      simp [leap]
    rw [leapFrom, Nat.zero_div, hleap]
    omega
  · have hindex : 16 * (strideOf pagetype + 2) / 16 = strideOf pagetype + 2 := by
      omega
    have hfields : (strideOf pagetype + 2) / strideOf pagetype = 1 ∧
        (strideOf pagetype + 2) % strideOf pagetype = 2 := by
      rcases strideOf_cases pagetype with h | h | h
      all_goals simp [h]
    have hleap : leap (strideOf pagetype) (strideOf pagetype + 2) =
        strideOf pagetype + 1 := by
      rw [leap, hfields.1, hfields.2, if_neg (by decide), Nat.add_comm]
    rw [leapFrom, hindex, hleap]
    omega

/-- A trapped search goes on and stays trapped. -/
theorem trapped_next
    (hmemory : strideOf pagetype + 1 < memlen.toNat / 8)
    (hpages : pages_number ≠ 0)
    {t : Nat × Nat}
    (ht : Trapped (strideOf pagetype) t) :
    ∃ t', physRoundOver memlen (byteCells (trapTable (strideOf pagetype))) pages_number
        pagetype (cursorAt t.1 (BitVec.ofNat 32 t.2), []) =
          .inl (cursorAt t'.1 (BitVec.ofNat 32 t'.2), []) ∧
      Trapped (strideOf pagetype) t' := by
  rcases t with ⟨p, count⟩
  have hstride := strideOf_cases pagetype
  have hbounds : count ≤ 31 ∧ p ≤ 16 * (strideOf pagetype + 2) := by
    rcases ht with h | h
    · cases h
      omega
    · dsimp only at h
      omega
  have hin : (p - 1) / 16 < memlen.toNat / 8 := by
    omega
  have hgate : ¬ BitVec.ofNat 32 count = multiplierOf pagetype := by
    intro h
    have := congrArg BitVec.toNat h
    rw [multiplierOf_toNat, BitVec.toNat_ofNat] at this
    omega
  have hround := physRoundOver_inside (byteCells (trapTable (strideOf pagetype)))
    pages_number pagetype (BitVec.ofNat 32 count) [] hin
  have hfound : foundAt pagetype p (BitVec.ofNat 32 count) [] = [] := if_neg hgate
  rw [hfound, if_neg (fun h => hpages h.symm)] at hround
  by_cases hused : UsedAt (byteCells (trapTable (strideOf pagetype))) p
  · rw [if_pos hused] at hround
    refine ⟨(leapFrom (strideOf pagetype) p, 0), hround, .inr ?_⟩
    exact leapFrom_trapTable hused
  · rw [if_neg hused] at hround
    refine ⟨(p + 1, count + 1), ?_, .inr ?_⟩
    · rw [hround, gate_succ]
    · rcases ht with h | h
      · cases h
        exact absurd ((usedAt_trapTable _ 0).mpr (.inl rfl)) hused
      · have hlast : ¬ p = 16 * (strideOf pagetype + 2) :=
          fun h => hused ((usedAt_trapTable _ p).mpr (.inr h))
        dsimp only at h ⊢
        omega

theorem trapTable_endless
    (hmemory : strideOf pagetype + 1 < memlen.toNat / 8)
    (hpages : pages_number ≠ 0)
    (fuel : Nat) :
    searchPhys memlen (byteCells (trapTable (strideOf pagetype))) pages_number pagetype
      fuel = none :=
  Loops.endless_of_invariant
    (f := fun t : Nat × Nat => (cursorAt t.1 (BitVec.ofNat 32 t.2), ([] : List Word)))
    (fun _ => trapped_next hmemory hpages) (t := (0, 0)) (.inl rfl) fuel

end Trap

/-- **The searches end for every table exactly when they ask for no page or the table
is short**, whether its elements are bytes or 32-bit words; a search of any one table
ends when no round that it comes to jumps back. -/
theorem searches_end_iff
    (memlen pages_number : Half) (pagetype : Nat) :
    ((∀ table : RamTable, SearchesEnd memlen (byteCells table) pages_number pagetype) ↔
        Short memlen pagetype ∨ pages_number = 0) ∧
      ((∀ words : Nat → Half, SearchesEnd memlen words pages_number pagetype) ↔
        Short memlen pagetype ∨ pages_number = 0) ∧
      ∀ cells : Cells, StaysForward memlen cells pages_number pagetype →
        SearchesEnd memlen cells pages_number pagetype := by
  have hends : Short memlen pagetype ∨ pages_number = 0 →
      ∀ cells : Cells, SearchesEnd memlen cells pages_number pagetype := by
    rintro (hshort | rfl) cells
    · exact searches_end_of_staysForward memlen cells pages_number pagetype
        (staysForward_of_short memlen cells pages_number pagetype hshort)
    · exact searches_end_of_no_pages memlen cells pagetype
  have hshort :
      SearchesEnd memlen (byteCells (trapTable (strideOf pagetype))) pages_number pagetype →
        Short memlen pagetype ∨ pages_number = 0 := by
    rintro ⟨-, fuel, r, hrun⟩
    by_contra hlong
    rw [not_or] at hlong
    rw [trapTable_endless (Nat.not_le.mp hlong.1) hlong.2] at hrun
    cases hrun
  refine ⟨⟨fun h => hshort (h _), fun h table => hends h _⟩,
    ⟨fun h => hshort (h _), hends⟩, ?_⟩
  exact fun cells => searches_end_of_staysForward memlen cells pages_number pagetype

/-- One small page and a table of 1024 bytes, with bit 0 of bytes 0 and 514 set. -/
theorem trapTable_never_ends :
    ¬ SearchesEnd 8192#32 (byteCells (trapTable 512)) 1#32 Pag.SMALLPAGE := by
  rintro ⟨-, fuel, r, hrun⟩
  have hmemory : strideOf Pag.SMALLPAGE + 1 < (8192#32).toNat / 8 := by
    decide
  have hpages : (1#32 : Half) ≠ 0 := by
    decide
  have hendless := trapTable_endless hmemory hpages fuel
  rw [show strideOf Pag.SMALLPAGE = 512 from rfl] at hendless
  rw [hendless] at hrun
  cases hrun

end Mem
end BestKernel
