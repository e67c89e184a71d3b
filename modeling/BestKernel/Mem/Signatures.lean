import BestKernel.Mem.Walk

/-!
# The entries that walks and searches sign

`vmto_entry` sets the occupancy bit of the entries it passes, whoever asks, and
`vmtree_fetch` walks for every candidate it looks at.  Here the entries signed are
lists, `walked` and `searched`, and the memory behind a walk or a search is the one
before it with these entries signed.  So an operation that ends in a signature leaves
the trees alone exactly when it signs what is signed already.
-/

namespace BestKernel
namespace Mem

open Machine

/-- Sign the entries of a list. -/
def signAll (m : WordMemory) (entries : List Word) : WordMemory :=
  entries.foldl sign m

@[simp] theorem signAll_nil (m : WordMemory) : signAll m [] = m :=
  rfl

theorem signAll_append (m : WordMemory) (l l' : List Word) :
    signAll m (l ++ l') = signAll (signAll m l) l' :=
  List.foldl_append

theorem signAll_apply (m : WordMemory) (l : List Word) (a : Word) :
    signAll m l a = if a ∈ l then setBit (m a) 56 else m a := by
  induction l generalizing m with
  | nil => simp
  | cons b l ih =>
      have hcons : signAll m (b :: l) = signAll (sign m b) l := rfl
      rw [hcons, ih]
      by_cases hb : a = b
      · subst hb
        simp
      · rw [sign_of_ne hb]
        simp [hb]

theorem bitSet_signAll
    {m : WordMemory} {l : List Word} {a : Word}
    (ha : a ∈ l) :
    bitSet (signAll m l a) 56 = true := by
  rw [signAll_apply, if_pos ha, bitSet_setBit _ (by decide) (by decide)]
  simp

/-- An entry stays as it is exactly when it is not signed or was signed already. -/
theorem signAll_apply_eq_self_iff
    {m : WordMemory} {l : List Word} {a : Word} :
    signAll m l a = m a ↔ (a ∈ l → bitSet (m a) 56 = true) := by
  constructor
  · intro h ha
    rw [← h]
    exact bitSet_signAll ha
  · intro h
    rw [signAll_apply]
    split_ifs with ha
    · exact setBit_of_bitSet (by decide) (h ha)
    · rfl

/-- Signing changes nothing exactly when all is signed. -/
theorem signAll_eq_self_iff (m : WordMemory) (l : List Word) :
    signAll m l = m ↔ ∀ a, a ∈ l → bitSet (m a) 56 = true := by
  rw [funext_iff]
  exact forall_congr' fun a => signAll_apply_eq_self_iff

theorem signAll_same (m : WordMemory) (l : List Word) :
    SameButOccupied m (signAll m l) := by
  intro a
  rw [signAll_apply]
  split_ifs
  · rw [setBit_setBit]
  · rfl

section Stores

variable {tree : Word → Prop} {m m' : WordMemory} {base : Word} {f : Nat → Word} {n : Nat}
variable {l : List Word}

/-- The words of a region of `n` entries. -/
def Within (base : Word) (n : Nat) (a : Word) : Prop :=
  ∃ h, h < n ∧ a = wordAt base h

/-- Two memories agree on some of the words. -/
def SameOn (tree : Word → Prop) (m m' : WordMemory) : Prop :=
  ∀ a, tree a → m' a = m a

/-- Signatures with some words overwritten change nothing exactly when the new words are
the old ones, and the other entries signed already. -/
theorem sameOn_overwritten_iff
    {P : Word → Prop}
    (hout : ∀ a, ¬ P a → m' a = signAll m l a) :
    SameOn tree m m' ↔
      (∀ a, tree a → P a → m' a = m a) ∧
        ∀ a, a ∈ l → tree a → P a ∨ bitSet (m a) 56 = true := by
  constructor
  · intro h
    refine ⟨fun a ha _ => h a ha, fun a hl ha => ?_⟩
    by_cases hin : P a
    · exact Or.inl hin
    · have hkept := h a ha
      rw [hout a hin] at hkept
      exact Or.inr (signAll_apply_eq_self_iff.mp hkept hl)
  · rintro ⟨hstored, hsigned⟩ a ha
    by_cases hin : P a
    · exact hstored a ha hin
    · rw [hout a hin, signAll_apply_eq_self_iff]
      exact fun hl => (hsigned a hl ha).resolve_left hin

theorem sameOn_signAll_iff :
    SameOn tree m (signAll m l) ↔ ∀ a, a ∈ l → tree a → bitSet (m a) 56 = true := by
  rw [sameOn_overwritten_iff (l := l) (P := fun _ => False) fun _ _ => rfl]
  simp

theorem storeWords_of_not_within
    {a : Word}
    (h : ¬ Within base n a) :
    storeWords m base f n a = m a :=
  storeWords_of_not_mem fun i hi ha => h ⟨i, hi, ha⟩

/-- Stores on top of signatures. -/
theorem sameOn_storeWords_signAll_iff
    (hn : n ≤ 2 ^ 61) :
    SameOn tree m (storeWords (signAll m l) base f n) ↔
      (∀ h, h < n → tree (wordAt base h) → m (wordAt base h) = f h) ∧
        ∀ a, a ∈ l → tree a → Within base n a ∨ bitSet (m a) 56 = true := by
  rw [sameOn_overwritten_iff fun a => storeWords_of_not_within]
  refine and_congr_left' ⟨fun h i hi ha => ?_, ?_⟩
  · rw [← h _ ha ⟨i, hi, rfl⟩, storeWords_wordAt hn hi]
  · rintro h a ha ⟨i, hi, rfl⟩
    rw [storeWords_wordAt hn hi, h i hi ha]

/-- Stores with signatures below and on top of them. -/
theorem sameOn_signAll_storeWords_iff
    {l' : List Word}
    (hn : n ≤ 2 ^ 61) :
    SameOn tree m (signAll (storeWords (signAll m l) base f n) l') ↔
      (∀ h, h < n → tree (wordAt base h) →
        m (wordAt base h) = if wordAt base h ∈ l' then setBit (f h) 56 else f h) ∧
        ∀ a, a ∈ l ++ l' → tree a → Within base n a ∨ bitSet (m a) 56 = true := by
  have hout : ∀ a, ¬ Within base n a →
      signAll (storeWords (signAll m l) base f n) l' a = signAll m (l ++ l') a := by
    intro a ha
    rw [signAll_append, signAll_apply, signAll_apply _ l', storeWords_of_not_within ha]
  rw [sameOn_overwritten_iff hout]
  refine and_congr_left' ⟨fun h i hi ha => ?_, ?_⟩
  · rw [← h _ ha ⟨i, hi, rfl⟩, signAll_apply, storeWords_wordAt hn hi]
  · rintro h a ha ⟨i, hi, rfl⟩
    rw [signAll_apply, storeWords_wordAt hn hi, h i hi ha]

end Stores

section Walk

variable (vm : Word) (m : WordMemory) (pagetree : Word)

/-- The entries that a walk passes, which it signs. -/
def walked : List Word :=
  if bitSet (m (firstEntry vm pagetree)) 7 then [firstEntry vm pagetree]
  else [firstEntry vm pagetree, secondEntry vm pagetree]

theorem vmtoEntry_fst_eq :
    (vmtoEntry vm m pagetree).1 = signAll m (walked vm m pagetree) := by
  rw [vmtoEntry_fst, walked]
  split_ifs <;> rfl

theorem vmtoEntry_eq_signAll :
    vmtoEntry vm m pagetree =
      (signAll m (walked vm m pagetree), entryOf vm m pagetree) :=
  Prod.ext (vmtoEntry_fst_eq vm m pagetree) rfl

theorem mem_walked_iff (a : Word) :
    a ∈ walked vm m pagetree ↔ a = firstEntry vm pagetree ∨
      bitSet (m (firstEntry vm pagetree)) 7 = false ∧ a = secondEntry vm pagetree := by
  unfold walked
  split_ifs with hlarge <;> simp [hlarge]

theorem walked_congr
    {m' : WordMemory}
    (h : SameButOccupied m m') :
    walked vm m' pagetree = walked vm m pagetree := by
  rw [walked, walked, h.bitSet_eq (by decide) (by decide)]

/-- All entries that a walk passes are signed already. -/
def WalkSigned : Prop :=
  ∀ a, a ∈ walked vm m pagetree → bitSet (m a) 56 = true

instance : Decidable (WalkSigned vm m pagetree) :=
  inferInstanceAs (Decidable (∀ a, a ∈ walked vm m pagetree → bitSet (m a) 56 = true))

theorem vmtoEntry_unchanged_iff :
    (vmtoEntry vm m pagetree).1 = m ↔ WalkSigned vm m pagetree := by
  rw [vmtoEntry_fst_eq, signAll_eq_self_iff]
  rfl

/-- A translation leaves what its walk leaves. -/
theorem vmtoPhys_fst_eq :
    (vmtoPhys m pagetree vm).1 = signAll m (walked vm m pagetree) := by
  unfold vmtoPhys
  simp only [vmtoEntry_eq_signAll]
  split_ifs <;> rfl

theorem vmtoPhys_unchanged_iff :
    (vmtoPhys m pagetree vm).1 = m ↔ WalkSigned vm m pagetree := by
  rw [vmtoPhys_fst_eq, signAll_eq_self_iff]
  rfl

end Walk

/-- Some of the `n` entries from `entries` on has the supervisor bit. -/
def Supervised (m : WordMemory) (entries : Word) (n : Nat) : Prop :=
  ∃ h, h < n ∧ bitSet (m (wordAt entries h)) 2 = true

instance (m : WordMemory) (entries : Word) (n : Nat) : Decidable (Supervised m entries n) :=
  decidable_of_iff ((List.range n).any (fun h => bitSet (m (wordAt entries h)) 2) = true)
    (by simp [Supervised])

/-- The entry that `deallocate_vm` resets a small page to. -/
abbrev segfaultEntry : Word := memreqTemplate walkedPagetype .SEGFAULT Cache.WRITEBACK.code 0

/-- `deallocate_vm` in closed form. -/
theorem deallocateVm_eq (m : WordMemory) (pagetree vm : Word) (n : Nat) :
    deallocateVm m pagetree vm n =
      if entryOf vm m pagetree = 0 then (1, [], signAll m (walked vm m pagetree))
      else if Supervised m (entryOf vm m pagetree) n then
        (3, [], signAll m (walked vm m pagetree))
      else
        (0,
          (List.range n).map fun h =>
            shr (signAll m (walked vm m pagetree) (wordAt (entryOf vm m pagetree) h) <<< 5) 18,
          storeWords (signAll m (walked vm m pagetree)) (entryOf vm m pagetree)
            (fun _ => segfaultEntry) n) := by
  have hbits : ((List.range n).any fun h =>
      bitSet (signAll m (walked vm m pagetree) (wordAt (entryOf vm m pagetree) h)) 2) = true ↔
        Supervised m (entryOf vm m pagetree) n := by
    simp [Supervised, (signAll_same m (walked vm m pagetree)).bitSet_eq]
  unfold deallocateVm
  rw [vmtoEntry_eq_signAll]
  simp only [hbits]

/-- A range without entries or with a supervisor page is refused. -/
theorem deallocateVm_of_refused
    {m : WordMemory} {pagetree vm : Word} {n : Nat}
    (h : entryOf vm m pagetree = 0 ∨ Supervised m (entryOf vm m pagetree) n) :
    ∃ status, status ≠ 0 ∧ deallocateVm m pagetree vm n =
      (status, [], signAll m (walked vm m pagetree)) := by
  rw [deallocateVm_eq]
  by_cases hnull : entryOf vm m pagetree = 0
  · rw [if_pos hnull]
    exact ⟨1, by decide, rfl⟩
  · rw [if_neg hnull, if_pos (h.resolve_left hnull)]
    exact ⟨3, by decide, rfl⟩

/-- Any other one is released. -/
theorem deallocateVm_of_released
    {m : WordMemory} {pagetree vm : Word} {n : Nat}
    (h : ¬ (entryOf vm m pagetree = 0 ∨ Supervised m (entryOf vm m pagetree) n)) :
    deallocateVm m pagetree vm n =
      (0,
        (List.range n).map fun h =>
          shr (signAll m (walked vm m pagetree) (wordAt (entryOf vm m pagetree) h) <<< 5) 18,
        storeWords (signAll m (walked vm m pagetree)) (entryOf vm m pagetree)
          (fun _ => segfaultEntry) n) := by
  obtain ⟨hnull, hfree⟩ := not_or.mp h
  rw [deallocateVm_eq, if_neg hnull, if_neg hfree]

theorem mem_walked_zero
    (m : WordMemory) (pagetree a : Word) :
    a ∈ walked 0 m pagetree ↔ a = pagetree := by
  rw [walked, firstEntry_zero, secondEntry_zero]
  split_ifs <;> simp

section Search

variable (pagetree : Word)

/-- The entries that the search signs, with `left` entries to go from `iterator` on:
those of the walk for each candidate, up to the one it finds. -/
def fetchWalked (pages_number : Nat) (pointer : Word) :
    Nat → Nat → WordMemory → List Word
  | 0, _, _ => []
  | left + 1, iterator, m =>
      if fetchInner m pointer iterator pages_number 0 ≠ pages_number then
        fetchWalked pages_number pointer left (iterator + 1) m
      else
        let vm := entrytoVm pagetree (wordAt pointer iterator)
        let passed := walked vm m pagetree
        if entryOf vm m pagetree = wordAt pointer iterator then passed
        else passed ++ fetchWalked pages_number pointer left (iterator + 1) (signAll m passed)

/-- The entries that `vmtree_fetch` signs. -/
def searched (m : WordMemory) (pages_number pagetype : Nat) : List Word :=
  fetchWalked pagetree pages_number (offsetByDepth pagetree pagetype)
    (getMultiFromPagetype pagetype / 4096) 0 m

theorem fetchLoop_snd
    (pages_number : Nat) (pointer : Word) (left iterator : Nat) (m : WordMemory) :
    (fetchLoop pagetree pages_number pointer left iterator m).2 =
      signAll m (fetchWalked pagetree pages_number pointer left iterator m) := by
  induction left generalizing iterator m with
  | zero => rfl
  | succ left ih =>
      rw [fetchLoop, fetchWalked]
      by_cases hinner : fetchInner m pointer iterator pages_number 0 ≠ pages_number
      · rw [if_pos hinner, if_pos hinner]
        exact ih (iterator + 1) m
      · rw [if_neg hinner, if_neg hinner]
        simp only [vmtoEntry_eq_signAll]
        split_ifs with hentry
        · rfl
        · rw [ih, signAll_append]

/-- **The memory behind a search.** -/
theorem vmtreeFetch_snd (m : WordMemory) (pages_number pagetype : Nat) :
    (vmtreeFetch pagetree m pages_number pagetype).2 =
      signAll m (searched pagetree m pages_number pagetype) :=
  fetchLoop_snd _ _ _ _ _ _

/-- What blocks the search keeps blocking it when entries are signed. -/
theorem fetchBlocked_signAll
    {m : WordMemory} {pointer : Word} {iterator : Nat}
    (h : fetchBlocked m pointer iterator = true)
    (l : List Word) :
    fetchBlocked (signAll m l) pointer iterator = true := by
  have hpresent : bitSet (signAll m l (wordAt pointer iterator)) 0 =
      bitSet (m (wordAt pointer iterator)) 0 :=
    (signAll_same m l).bitSet_eq (by decide) (by decide) _
  have hoccupied : bitSet (m (wordAt pointer iterator)) 56 = true →
      bitSet (signAll m l (wordAt pointer iterator)) 56 = true := by
    intro hset
    rw [signAll_apply]
    split_ifs
    · rw [setBit_of_bitSet (by decide) hset, hset]
    · exact hset
  unfold fetchBlocked at h ⊢
  rw [hpresent]
  simp only [Bool.or_eq_true] at h ⊢
  rcases h with h | h
  · exact Or.inl h
  · exact Or.inr (hoccupied h)

variable {pagetree} in
/-- A search fails when every entry is blocked or not the one its address walks to. -/
theorem fetchLoop_none
    {pages_number : Nat} {pointer : Word} {left iterator : Nat} {m : WordMemory}
    (hpages : 0 < pages_number)
    (hmissed : ∀ i, i < left → fetchBlocked m pointer (iterator + i) = true ∨
      entryOf (entrytoVm pagetree (wordAt pointer (iterator + i))) m pagetree ≠
        wordAt pointer (iterator + i)) :
    (fetchLoop pagetree pages_number pointer left iterator m).1 = none := by
  induction left generalizing iterator m with
  | zero => rfl
  | succ left ih =>
      have hnext : ∀ l i, i < left →
          fetchBlocked (signAll m l) pointer (iterator + 1 + i) = true ∨
            entryOf (entrytoVm pagetree (wordAt pointer (iterator + 1 + i)))
              (signAll m l) pagetree ≠ wordAt pointer (iterator + 1 + i) := by
        intro l i hi
        have hi' := hmissed (i + 1) (by omega)
        rw [show iterator + (i + 1) = iterator + 1 + i by omega] at hi'
        rw [entryOf_congr (signAll_same m l)]
        rcases hi' with hblocked | hentry
        · exact Or.inl (fetchBlocked_signAll hblocked l)
        · exact Or.inr hentry
      have hhead := hmissed 0 (Nat.succ_pos _)
      rw [Nat.add_zero] at hhead
      rw [fetchLoop, fetchInner_eq]
      by_cases hblocked : fetchBlocked m pointer iterator = true
      · rw [if_pos hblocked, if_pos (by omega)]
        exact ih (hnext [])
      · have hentry := hhead.resolve_left hblocked
        rw [if_neg hblocked, if_neg (by omega)]
        simp only [vmtoEntry_eq_signAll, if_neg hentry]
        exact ih (hnext _)

/-- All entries that a search signs are signed already. -/
def SearchSigned (m : WordMemory) (pages_number pagetype : Nat) : Prop :=
  ∀ a, a ∈ searched pagetree m pages_number pagetype → bitSet (m a) 56 = true

theorem vmtreeFetch_unchanged_iff (m : WordMemory) (pages_number pagetype : Nat) :
    (vmtreeFetch pagetree m pages_number pagetype).2 = m ↔
      SearchSigned pagetree m pages_number pagetype := by
  rw [vmtreeFetch_snd, signAll_eq_self_iff]
  rfl

end Search

end Mem
end BestKernel
