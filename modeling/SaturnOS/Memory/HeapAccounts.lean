import SaturnOS.Memory.HeapMerged

/-!
# Memory/HeapAccounts — what the counters say

    total = 4072 · pages      used + free + 24 · blocks = 4096 · pages

A page counts for its capacity, so that its header is overhead; a block that coalescing has joined
to the one before it counts for its header too.  The accounts are exact as long as the list has no
fewer blocks than the heap has pages (`accounts_exact_iff`): two free pages that touch are one
block, and report more bytes free than there are.
-/

open Machinery

namespace SaturnOS

/-! ## The functions -/

def heapTotalBytes (s : Heap) : Word := s.heapPages * heapBlockCapacity

def heapUsedBytes (s : Heap) : Word := s.heapUsed

/-- A turn of the loop of `heap_free_bytes`: the block it is at, and `total`. -/
def freeBytesBody (m : ℕ → Byte) : Word × Word → (Word × Word) ⊕ Word
  | (block, total) =>
    if block ≠ 0 then
      let header := heapBlockAt m block
      .inl (header.next, if header.free ≠ 0 then total + header.size else total)
    else .inr total

def heapFreeBytes (s : Heap) : Option Word :=
  loop (freeBytesBody s.memory) heapTurns (s.heapHead, 0)

def heapOverheadBytes (s : Heap) : Option Word :=
  (heapFreeBytes s).map fun free =>
    let total := heapTotalBytes s
    let used := heapUsedBytes s
    if total < used + free then 0 else total - used - free

/-! ## What they count -/

/-- The sizes of the free blocks, added up. -/
def freeBytes (bs : List Chunk) : ℕ := ((bs.filter Chunk.free).map fun b => b.size.toNat).sum

theorem freeBytes_cons (b : Chunk) (r : List Chunk) :
    freeBytes (b :: r) = (if b.free then b.size.toNat else 0) + freeBytes r := by
  rw [freeBytes, List.filter_cons, freeBytes]
  split <;> simp

/-- **Every byte of the pages is in use, free or in a header.** -/
theorem used_add_free (bs : List Chunk) :
    usedBytes bs + freeBytes bs + 24 * bs.length = (bs.map Chunk.bytes).sum := by
  induction bs with
  | nil => rfl
  | cons b r ih =>
    have hused : usedBytes (b :: r) = (if b.free then 0 else b.size.toNat) + usedBytes r := by
      rw [← List.singleton_append, usedBytes_append, usedBytes]
      cases hb : b.free with
      | true => rw [inUse_cons_free hb]; rfl
      | false => rw [inUse_cons_used hb]; rfl
    rw [hused, freeBytes_cons, List.map_cons, List.sum_cons, ← ih, List.length_cons, Chunk.bytes]
    cases b.free <;> simp only [Bool.false_eq_true, if_true, if_false] <;> omega

/-- The loop adds up the free blocks. -/
theorem freeBytes_loop {m : ℕ → Byte} : ∀ {bs : List Chunk} {p total : Word} {n : ℕ},
    Links (Stands m) p bs 0 → bs.length < n →
    loop (freeBytesBody m) n (p, total) = some (total + BitVec.ofNat 64 (freeBytes bs))
  | _, _, _, 0, _, hn => absurd hn (Nat.not_lt_zero _)
  | [], p, total, n + 1, h, _ => by
    have hbody : freeBytesBody m (p, total) = .inr total := if_neg fun hne => hne h
    rw [loop_end hbody]
    exact congrArg some (BitVec.add_zero total).symm
  | b :: r, p, total, n + 1, ⟨next, hb, hr⟩, hn => by
    have hp : p ≠ 0 := hb.1 ▸ b.addr_ne
    have hcount : (if (heapBlockAt m p).free ≠ 0 then total + (heapBlockAt m p).size else total)
        = total + BitVec.ofNat 64 (if b.free then b.size.toNat else 0) := by
      rw [show (heapBlockAt m p).size = b.size from congrArg HeapBlock.size hb.2]
      by_cases hfree : b.free = true
      · rw [if_pos ((stands_free hb).mpr hfree), if_pos hfree, BitVec.ofNat_toNat,
          BitVec.setWidth_eq]
      · rw [if_neg (fun hn => hfree ((stands_free hb).mp hn)), if_neg hfree]
        exact (BitVec.add_zero total).symm
    have hbody : freeBytesBody m (p, total)
        = .inl (next, total + BitVec.ofNat 64 (if b.free then b.size.toNat else 0)) := by
      rw [freeBytesBody, if_pos hp]
      exact congrArg₂ (fun x y => Sum.inl (x, y)) (congrArg HeapBlock.next hb.2) hcount
    rw [loop_next hbody, freeBytes_loop hr (Nat.lt_of_succ_lt_succ hn), freeBytes_cons,
      BitVec.ofNat_add, BitVec.add_assoc]

/-! ## Runs -/

/-- `heap_pages` counts the pages. -/
def PagesCounted (s : Heap) : Prop := s.heapPages = BitVec.ofNat 64 s.pages.length

theorem takeBlock_heapPages (s : Heap) (block size : Word) :
    (takeBlock s block size).heapPages = s.heapPages := by
  rw [takeBlock, splitBlock]
  dsimp only
  split <;> rfl

theorem growHeap_heapPages {s : Heap} {page : Word} (h : page ≠ 0) :
    (growHeap s page).1.heapPages = s.heapPages + 1 := by
  rw [growHeap, if_neg h]
  dsimp only
  split <;> rfl

theorem Mallocs.counted {s s' : Heap} {bs bs' : List Chunk} {size page p : Word}
    (h : Mallocs s bs size page s' p bs') (hs : PagesCounted s) : PagesCounted s' := by
  cases h with
  | refused => exact hs
  | found =>
    rw [PagesCounted, takeBlock_heapPages, takeBlock_pages]
    exact hs
  | grown _ hpage _ _ =>
    rw [PagesCounted, takeBlock_heapPages, takeBlock_pages, growHeap_heapPages hpage.ne,
      growHeap_pages hpage.ne, hs, List.length_cons, BitVec.ofNat_add]
    rfl

theorem Reshaped.counted {s s' : HeapRun} {bs bs' : List Chunk} {op : HeapOp}
    (h : Reshaped s bs op s' bs') (hs : PagesCounted s.heap) : PagesCounted s'.heap := by
  cases h with
  | kmalloc hm => exact hm.counted hs
  | kzalloc m hm => exact hm.counted hs
  | kfree hcall _ =>
    obtain ⟨hpages, hcount⟩ := kfree_pages hcall
    rw [PagesCounted, hpages, hcount]
    exact hs

/-- **The accounts are exact**: what is used and what is free is no more than the total, and the
overhead is the rest. -/
def AccountsExact (s : Heap) : Prop :=
  ∃ free overhead, heapFreeBytes s = some free ∧ heapOverheadBytes s = some overhead ∧
    (heapUsedBytes s).toNat + free.toNat ≤ (heapTotalBytes s).toNat ∧
    overhead.toNat = (heapTotalBytes s).toNat - (heapUsedBytes s).toNat - free.toNat

/-- **The accounts of a list of blocks** are exact when it is no shorter than the list of pages. -/
theorem Represents.accountsExact_iff {s : Heap} {bs : List Chunk} (h : Represents s bs)
    (hcount : PagesCounted s) : AccountsExact s ↔ s.pages.length ≤ bs.length := by
  have hfree : heapFreeBytes s = some (BitVec.ofNat 64 (freeBytes bs)) := by
    rw [heapFreeBytes, freeBytes_loop h.listed.linked h.length_lt]
    exact congrArg some (BitVec.zero_add _)
  have hpages := length_pages h.pages h.nodup
  have hall := used_add_free bs
  rw [h.bytes] at hall
  have hfreeNat : (BitVec.ofNat 64 (freeBytes bs)).toNat = freeBytes bs := by
    rw [BitVec.toNat_ofNat, Nat.mod_eq_of_lt (by omega)]
  have hused : (heapUsedBytes s).toNat = usedBytes bs := h.toNat_used
  have htotal : (heapTotalBytes s).toNat = s.pages.length * 4072 := by
    have hlength : s.heapPages.toNat = s.pages.length := by
      rw [hcount, BitVec.toNat_ofNat, Nat.mod_eq_of_lt (by omega)]
    rw [heapTotalBytes, BitVec.toNat_mul, hlength,
      show heapBlockCapacity.toNat = 4072 from by decide, Nat.mod_eq_of_lt (by omega)]
  constructor
  · rintro ⟨free, overhead, hfree', -, hle, -⟩
    obtain rfl := Option.some.inj (hfree.symm.trans hfree')
    rw [hused, hfreeNat, htotal] at hle
    omega
  · intro hle
    have hsum : (heapUsedBytes s + BitVec.ofNat 64 (freeBytes bs)).toNat
        = usedBytes bs + freeBytes bs := by
      rw [BitVec.toNat_add, hused, hfreeNat, Nat.mod_eq_of_lt (by omega)]
    have hnot : ¬ heapTotalBytes s < heapUsedBytes s + BitVec.ofNat 64 (freeBytes bs) := by
      rw [BitVec.lt_def, hsum, htotal]
      omega
    refine ⟨_, heapTotalBytes s - heapUsedBytes s - BitVec.ofNat 64 (freeBytes bs), hfree, ?_, ?_,
      ?_⟩
    · rw [heapOverheadBytes, hfree]
      exact congrArg some (if_neg hnot)
    · rw [hused, hfreeNat, htotal]
      omega
    · have hwithin : (heapTotalBytes s - heapUsedBytes s).toNat
          = s.pages.length * 4072 - usedBytes bs := by
        rw [BitVec.toNat_sub_of_le (by rw [BitVec.le_def, hused, htotal]; omega), hused, htotal]
      rw [BitVec.toNat_sub_of_le (by rw [BitVec.le_def, hwithin, hfreeNat]; omega), hwithin,
        hfreeNat, hused, htotal]

/-- **The accounts are exact as long as there are as many blocks as pages**, in every state of every
run. -/
theorem accounts_exact_iff (s : Heap) (ops : List HeapOp) :
    Always heapReturn (fun s => ∃ bs, Links (Stands s.heap.memory) s.heap.heapHead bs 0 ∧
      (AccountsExact s.heap ↔ s.heap.pages.length ≤ bs.length)) (heapRunInit s) ops := by
  refine Always.of_inv
    (I := fun s => (∃ bs, HeapTidy s bs) ∧ PagesCounted s.heap) (fun s op s' hinv hstep => ?_)
    (fun s ⟨⟨bs, h⟩, hc⟩ => ⟨bs, h.represents.listed.linked, h.represents.accountsExact_iff hc⟩)
    ⟨⟨[], heapTidy_init s⟩, rfl⟩ ops
  obtain ⟨⟨bs, h⟩, hc⟩ := hinv
  obtain ⟨bs', -, -, hshape⟩ := heapReturn_reshaped h.represents h.lent hstep
  exact ⟨heapTidy_step h hstep, hshape.counted hc⟩

/-- **The defect**: two pages that touch, taken and given back, have more bytes free than the heap
has. -/
theorem joined_pages_exceed_total : ¬ Always heapReturn (fun s => AccountsExact s.heap)
    (heapRunInit emptyHeap)
    [.kmalloc 4064 0x40300000, .kmalloc 4064 0x40301000, .kfree 0x40300018, .kfree 0x40301018] := by
  refine not_always_of_run _ (fun s => (heapFreeBytes s.heap == some 8168)
    && (heapTotalBytes s.heap == 8144)) (by decide +kernel) fun s hbad hexact => ?_
  obtain ⟨free, overhead, hfree, -, hle, -⟩ := hexact
  simp only [Bool.and_eq_true, beq_iff_eq] at hbad
  obtain ⟨hfree', htotal⟩ := hbad
  obtain rfl := Option.some.inj (hfree.symm.trans hfree')
  rw [htotal] at hle
  have h8168 : (8168 : Word).toNat = 8168 := by decide
  have h8144 : (8144 : Word).toNat = 8144 := by decide
  omega

end SaturnOS
