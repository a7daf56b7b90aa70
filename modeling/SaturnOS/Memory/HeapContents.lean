import SaturnOS.Memory.HeapRuns

/-!
# Memory/HeapContents — what an allocation holds

    kzalloc ──▸ 0 0 0 0 ──store──▸ 0 b 0 0 ──any calls──▸ 0 b 0 0 ──kfree──▸

To its user the heap is a store of objects: what is written into an allocation stands there until
it is given back.  The calls write headers, free blocks and new pages, and an allocation is none of
these.
-/

open Machinery

namespace SaturnOS

/-! ## What a call leaves alone -/

/-- The payloads in use are as they were. -/
def KeepsPayloads (bs : List Chunk) (m m' : ℕ → Byte) : Prop :=
  ∀ d ∈ inUse bs, ∀ x, d.addr.toNat + 24 ≤ x → x < d.stop → m' x = m x

section Keeping

variable {s s' : Heap} {l r bs bs' : List Chunk} {b c : Chunk} {m m' m'' : ℕ → Byte}
  {size asked page p : Word}

theorem KeepsPayloads.refl (bs : List Chunk) (m : ℕ → Byte) : KeepsPayloads bs m m :=
  fun _ _ _ _ _ => rfl

theorem KeepsPayloads.trans (h : KeepsPayloads bs m m') (h' : KeepsPayloads bs' m' m'')
    (hsub : inUse bs ⊆ inUse bs') : KeepsPayloads bs m m'' :=
  fun d hd x hlow hhigh => (h' d (hsub hd) x hlow hhigh).trans (h d hd x hlow hhigh)

/-- Two blocks of a list are one, or apart. -/
theorem apart_of_mem (h : (l ++ b :: r).Pairwise Chunk.Apart) (hc : c ∈ l ++ b :: r) :
    c = b ∨ c.Apart b := by
  obtain ⟨hl, hr, hlr⟩ := List.pairwise_append.mp h
  rcases List.mem_append.mp hc with hc | hc
  · exact .inr (hlr c hc b List.mem_cons_self)
  · rcases List.mem_cons.mp hc with rfl | hc
    · exact .inl rfl
    · exact .inr ((List.pairwise_cons.mp hr).1 c hc).symm

/-- A header is written. -/
theorem keepsPayloads_header (h : (l ++ b :: r).Pairwise Chunk.Apart)
    (hout : EqOutside b.addr.toNat (b.addr.toNat + 24) m m') :
    KeepsPayloads (l ++ b :: r) m m' := by
  intro d hd x hlow hhigh
  refine hout x ?_
  rcases apart_of_mem h (mem_inUse.mp hd).1 with rfl | hapart
  · exact .inr hlow
  · have hstop : b.stop = b.addr.toNat + 24 + b.size.toNat := rfl
    have hstop' : d.stop = d.addr.toNat + 24 + d.size.toNat := rfl
    rw [Chunk.Apart] at hapart
    omega

/-- A free block is written. -/
theorem keepsPayloads_free (h : (l ++ b :: r).Pairwise Chunk.Apart) (hfree : b.free = true)
    (hout : EqOutside b.addr.toNat b.stop m m') : KeepsPayloads (l ++ b :: r) m m' := by
  intro d hd x hlow hhigh
  obtain ⟨hd, hused⟩ := mem_inUse.mp hd
  refine hout x ?_
  rcases apart_of_mem h hd with rfl | hapart
  · cases hfree.symm.trans hused
  · have hstop' : d.stop = d.addr.toNat + 24 + d.size.toNat := rfl
    rw [Chunk.Apart] at hapart
    omega

/-- **The taking of a block** writes within the block. -/
theorem takeBlock_outside (h : Listed s (l ++ b :: r)) (hsize : size.toNat + 56 < 2 ^ 64) :
    EqOutside b.addr.toNat b.stop s.memory (takeBlock s b.addr size).memory := by
  obtain ⟨next, hheader, -⟩ := h.header
  have hstop : b.stop = b.addr.toNat + 24 + b.size.toNat := rfl
  have hmark : ∀ m, EqOutside b.addr.toNat b.stop m (putFree m b.addr 0) := fun m =>
    eqOutside_putFree.mono (Nat.le_refl _) (by omega)
  have hsplit : EqOutside b.addr.toNat b.stop s.memory (splitBlock s b.addr size).memory := by
    rw [splitBlock]
    dsimp only
    split
    · exact fun _ _ => rfl
    · rename_i hfit
      have hle : size.toNat + 24 ≤ b.size.toNat := by
        rw [hheader, Chunk.header, heapBlockSizeof, heapMinSplit] at hfit
        bv_omega
      have haddr := b.toNat_high_addr hle
      have hhigh := b.stop_high hle
      have hstop' : (b.high size hle).stop
        = (b.high size hle).addr.toNat + 24 + (b.high size hle).size.toNat := rfl
      obtain ⟨-, -, hout⟩ := @split_memory s.memory _ b (b.high size hle) size next hheader rfl
        (by omega) rfl
      have hrest : (heapBlockAt s.memory b.addr).size - size - heapBlockSizeof
          = (b.high size hle).size := by
        rw [hheader]
        rfl
      rw [hrest]
      exact hout.mono (Nat.le_refl _) (by omega)
  rw [takeBlock]
  exact hsplit.trans (hmark _)

theorem KeepsPayloads.mono (h : KeepsPayloads bs' m m') (hsub : inUse bs ⊆ inUse bs') :
    KeepsPayloads bs m m' := fun d hd => h d (hsub hd)

theorem inUse_subset_append (bs r : List Chunk) : inUse bs ⊆ inUse (bs ++ r) := by
  rw [inUse_append]
  exact List.subset_append_left _ _

/-- **The growing of the heap** writes a header into the page, and one link. -/
theorem growHeap_keeps (h : Represents s bs) (hpage : PageOk page) (hnew : page ∉ s.pages) :
    KeepsPayloads bs s.memory (growHeap s page).1.memory := by
  have happart := (h.grow hpage hnew).listed.apart
  have hheader : KeepsPayloads bs s.memory (pageHeader s.memory page) :=
    (keepsPayloads_header happart (eqOutside_pageHeader s.memory page)).mono
      (inUse_subset_append bs _)
  rcases List.eq_nil_or_concat bs with rfl | ⟨l, b, rfl⟩
  · exact fun d hd => absurd hd List.not_mem_nil
  · have hhead : s.heapHead ≠ 0 := fun h0 => by
      have := (links_zero_iff h.listed.linked).mp h0
      simp at this
    have htail : s.heapTail = b.addr := by
      rw [h.listed.tail, List.concat_eq_append, lastAddr_append (List.cons_ne_nil _ _),
        lastAddr_singleton]
    have hmemory : (growHeap s page).1.memory
        = putNext (pageHeader s.memory page) b.addr page := by
      rw [growHeap, if_neg hpage.ne]
      simp only [hhead, if_false, htail]
      rfl
    rw [hmemory]
    have hold := h.listed.apart
    rw [List.concat_eq_append] at hheader hold ⊢
    exact hheader.trans (keepsPayloads_header hold eqOutside_putNext) (List.Subset.refl _)

/-- **`kmalloc`** leaves what is in use alone. -/
theorem Mallocs.keeps (h : Represents s bs) (hm : Mallocs s bs asked page s' p bs') :
    KeepsPayloads bs s.memory s'.memory := by
  cases hm with
  | refused => exact .refl bs _
  | found hnot hbs hfits _ =>
    subst hbs
    rw [Chunk.fits, Bool.and_eq_true] at hfits
    have hsmall := (heapAlignUp_bounds (capacity_of_not_refused hnot)).1
    exact keepsPayloads_free h.listed.apart hfits.1 (takeBlock_outside h.listed hsmall)
  | grown hnot hpage hnew _ =>
    have hgrown := h.grow hpage hnew
    have hsmall := (heapAlignUp_bounds (capacity_of_not_refused hnot)).1
    exact (growHeap_keeps h hpage hnew).trans
      (keepsPayloads_free hgrown.listed.apart rfl (takeBlock_outside hgrown.listed hsmall))
      (inUse_subset_append bs _)

/-- **Coalescing** writes headers of free blocks. -/
theorem coalesce_keeps : ∀ {r : List Chunk} {s s' : Heap} {l : List Chunk} {b : Chunk} {n : ℕ},
    Listed s (l ++ b :: r) → loop coalesceBody n (s, b.addr) = some s' →
    KeepsPayloads (l ++ b :: r) s.memory s'.memory
  | _, _, _, _, _, 0, _, hloop => nomatch hloop
  | [], s, s', l, b, n + 1, h, hloop => by
    obtain rfl := Option.some.inj ((loop_end (coalesceBody_last h) n).symm.trans hloop)
    exact .refl _ _
  | c :: r, s, s', l, b, n + 1, h, hloop => by
    by_cases hbc : b.Joins c
    · obtain ⟨-, next, hnext, -⟩ := h.header_next
      rw [loop_next (coalesceBody_join h hbc hnext)] at hloop
      have hsame : inUse (l ++ b.join c hbc :: r) = inUse (l ++ b :: c :: r) := by
        rw [inUse_append, inUse_append, inUse_cons_free rfl, inUse_cons_free hbc.1,
          inUse_cons_free hbc.2.1]
      have hout : EqOutside b.addr.toNat (b.addr.toNat + 24) s.memory
          (joined s b c next).memory := eqOutside_putSize.trans eqOutside_putNext
      exact (keepsPayloads_header h.apart hout).trans
        (coalesce_keeps (h.join hbc hnext) hloop) fun d hd => hsame.symm ▸ hd
    · rw [loop_next (coalesceBody_next h hbc)] at hloop
      rw [List.append_cons] at h ⊢
      exact coalesce_keeps h hloop

/-- **`kfree`** leaves what stays in use alone. -/
theorem Released.keeps (h : Represents s bs) (hcall : kfree s p = some s')
    (hf : Released bs p bs') : KeepsPayloads bs' s.memory s'.memory := by
  cases hf with
  | null h0 =>
    obtain rfl := Option.some.inj ((if_pos h0).symm.trans hcall)
    exact .refl bs _
  | @freed l r b hbs hused hp =>
    subst hbs hp
    obtain ⟨next, hheader, -⟩ := h.listed.header
    have hfree : (heapBlockAt s.memory b.addr).free = 0 := by
      rw [hheader]
      show (if b.free then 1 else 0 : BitVec 32) = 0
      rw [hused]
      rfl
    rw [kfree, if_neg b.payload_ne, b.payload_sub] at hcall
    replace hcall := (if_neg fun hn => hn hfree).symm.trans hcall
    rw [hheader] at hcall
    set s₁ : Heap := { s with
      memory := putFree s.memory b.addr 1
      heapUsed := s.heapUsed - b.size } with hs₁
    have hlisted : Listed s₁ (l ++ b.mark true :: r) := h.listed.mark true rfl rfl rfl
    have hmark : KeepsPayloads (l ++ b.mark true :: r) s.memory s₁.memory := by
      refine (keepsPayloads_header h.listed.apart eqOutside_putFree).mono ?_
      rw [inUse_append, inUse_append, inUse_cons_free rfl, inUse_cons_used hused]
      exact List.append_subset.mpr ⟨List.subset_append_left _ _,
        fun d hd => List.mem_append_right _ (List.mem_cons_of_mem b hd)⟩
    have hsame : inUse (merge (l ++ [b.mark true] ++ r)) = inUse (l ++ b.mark true :: r) := by
      rw [inUse_merge, List.append_assoc, List.singleton_append]
    refine KeepsPayloads.mono ?_ fun d hd => hsame ▸ hd
    -- the loop starts at the head, whatever stands there
    refine hmark.trans ?_ (List.Subset.refl _)
    replace hcall : coalesceBlocks s₁ = some s' := hcall
    obtain ⟨d, l', hl'⟩ := List.exists_cons_of_ne_nil
      (List.append_ne_nil_of_right_ne_nil l (List.cons_ne_nil (b.mark true) r))
    rw [hl'] at hlisted ⊢
    obtain ⟨_, ⟨hhead, -⟩, -⟩ := hlisted.linked
    rw [coalesceBlocks, hhead] at hcall
    exact coalesce_keeps (l := []) hlisted hcall

end Keeping

/-! ## The store of objects -/

/-- The heap with its live allocations, and what is known of their bytes: what their owners have
written, and the zeros of `kzalloc`. -/
structure HeldRun where
  run : HeapRun
  held : Word → ℕ → Option Byte

/-- A call, or `((uint8_t *)ptr)[i] = b`. -/
inductive HeldOp
  | call (op : HeapOp)
  | store (ptr : Word) (i : ℕ) (b : Byte)

/-- Byte `i` of what was asked for, where the size does not wrap. -/
def AskedFor (live : List (Word × Word)) (ptr : Word) (i : ℕ) : Prop :=
  ∃ a ∈ live, a.1 = ptr ∧ i < a.2.toNat ∧ a.2.toNat + 15 < 2 ^ 64

instance (live : List (Word × Word)) (ptr : Word) (i : ℕ) : Decidable (AskedFor live ptr i) :=
  inferInstanceAs (Decidable (∃ a ∈ live, _))

/-- The pointer a call returns, or gives back. -/
def pointerOf (s : Heap) : HeapOp → Word
  | .kmalloc size page => (kmalloc s size page).elim 0 Prod.snd
  | .kzalloc size page => (kzalloc s size page).elim 0 Prod.snd
  | .kfree ptr => ptr

/-- What is known of the bytes there after the call. -/
def leftBy : HeapOp → Option Byte
  | .kmalloc _ _ => none
  | .kzalloc _ _ => some 0
  | .kfree _ => none

def heldCall (s : HeldRun) (op : HeapOp) : Option HeldRun :=
  (heapCall s.run op).map fun run =>
    ⟨run, Function.update s.held (pointerOf s.run.heap op) fun _ => leftBy op⟩

def heldStep (s : HeldRun) : HeldOp → Option HeldRun
  | .call op => if Allowed s.run op ∧ ZeroesWithin s.run op then heldCall s op else none
  | .store ptr i b =>
    if AskedFor s.run.live ptr i then
      some
        { run := { s.run with
            heap := { s.run.heap with
              memory := Function.update s.run.heap.memory (ptr.toNat + i) b } }
          held := Function.update s.held ptr (Function.update (s.held ptr) i (some b)) }
    else none

def heldInit (s : Heap) : HeldRun := ⟨heapRunInit s, fun _ _ => none⟩

/-- **What is known is what is there.** -/
def ReadsHeld (s : HeldRun) : Prop :=
  ∀ ptr i b, AskedFor s.run.live ptr i → s.held ptr i = some b →
    s.run.heap.memory (ptr.toNat + i) = b

/-- The sizes that do not wrap are within a page. -/
def FitsPage (live : List (Word × Word)) : Prop :=
  ∀ a ∈ live, a.2.toNat + 15 < 2 ^ 64 → a.2.toNat ≤ 4064

section Holding

variable {s s' t : Heap} {live : List (Word × Word)} {bs bs' : List Chunk} {c d : Chunk}
  {size asked page p ptr : Word} {i : ℕ} {m m' : ℕ → Byte} {held : Word → ℕ → Option Byte}
  {b : Byte}

/-- What was asked for is in a block. -/
theorem Lent.asked_block (h : Lent live bs) (hfits : FitsPage live) (hi : AskedFor live ptr i) :
    ∃ d ∈ inUse bs, d.payload = ptr ∧ i < d.size.toNat := by
  obtain ⟨a, ha, rfl, hi, hwraps⟩ := hi
  obtain ⟨d, hd, hpayload, hle⟩ := h.sizes a ha (hfits a ha hwraps)
  exact ⟨d, hd, hpayload, Nat.lt_of_lt_of_le hi hle⟩

/-- …whose bytes are kept. -/
theorem KeepsPayloads.byte (h : KeepsPayloads bs m m') (hd : d ∈ inUse bs)
    (hpayload : d.payload = ptr) (hi : i < d.size.toNat) :
    m' (ptr.toNat + i) = m (ptr.toNat + i) := by
  have hplace := d.toNat_payload
  have hstop : d.stop = d.addr.toNat + 24 + d.size.toNat := rfl
  rw [hpayload] at hplace
  exact h d hd _ (by omega) (by omega)

/-- Bytes of two blocks are two bytes. -/
theorem asked_ne (happart : bs.Pairwise Chunk.Apart) (hc : c ∈ bs) (hd : d ∈ bs)
    (hne : c.payload ≠ d.payload) {j : ℕ} (hi : i < c.size.toNat) (hj : j < d.size.toNat) :
    c.payload.toNat + i ≠ d.payload.toNat + j := by
  obtain ⟨l, r, rfl⟩ := List.append_of_mem hd
  have hplace := c.toNat_payload
  have hplace' := d.toNat_payload
  have hstop : c.stop = c.addr.toNat + 24 + c.size.toNat := rfl
  have hstop' : d.stop = d.addr.toNat + 24 + d.size.toNat := rfl
  rcases apart_of_mem happart hc with rfl | hapart
  · exact absurd rfl hne
  · rw [Chunk.Apart] at hapart
    omega

theorem AskedFor.of_lend (h : AskedFor (lend live p size) ptr i) (hne : ptr ≠ p) :
    AskedFor live ptr i := by
  rw [lend] at h
  split at h
  · exact h
  · obtain ⟨a, ha, rfl, hi⟩ := h
    rcases List.mem_cons.mp ha with rfl | ha
    · exact absurd rfl hne
    · exact ⟨a, ha, rfl, hi⟩

/-- **What is zeroed**: every byte that is asked for of the new allocation… -/
theorem zeroed_new (hlent : Lent (lend live p size) bs) (hp : p ≠ 0)
    (hi : AskedFor (lend live p size) p i) (hd : d.payload = p) (hlt : i < d.size.toNat)
    (m : ℕ → Byte) : zeroBytes m p size.toNat (p.toNat + i) = 0 := by
  obtain ⟨a, ha, haptr, hia, -⟩ := hi
  have hdistinct := hlent.distinct
  rw [lend, if_neg hp] at ha hdistinct
  have hsize : i < size.toNat := by
    rcases List.mem_cons.mp ha with rfl | ha
    · exact hia
    · exact absurd (List.mem_map.mpr ⟨a, ha, haptr⟩) (List.nodup_cons.mp hdistinct).1
  have hplace := d.toNat_payload
  have hstop := d.stop_lt
  rw [hd] at hplace
  rw [zeroBytes_apply (by omega), if_pos]
  refine ⟨by omega, ?_⟩
  rw [BitVec.toNat_sub, BitVec.toNat_ofNat]
  omega

/-- …and none of any other. -/
theorem zeroed_other (happart : bs.Pairwise Chunk.Apart) (hserves : Serves bs p size) (hp : p ≠ 0)
    (hwraps : size.toNat + 15 < 2 ^ 64) (hd : d ∈ bs) (hne : d.payload ≠ p)
    (hlt : i < d.size.toNat) (m : ℕ → Byte) :
    zeroBytes m p size.toNat (d.payload.toNat + i) = m (d.payload.toNat + i) := by
  obtain ⟨c, hc, hcp, hcsize⟩ := hserves hp
  have hplace := c.toNat_payload
  have hstop := c.stop_lt
  have hle := hcsize hwraps
  rw [hcp] at hplace
  refine eqOutside_zeroBytes (by omega) _ ?_
  by_contra hin
  refine asked_ne happart hc hd (i := d.payload.toNat + i - p.toNat)
    (fun heq => hne (heq.symm.trans hcp)) (by omega) hlt ?_
  rw [hcp]
  omega

/-- What `kzalloc` zeroes does not wrap. -/
theorem noWrap_of_ne (hwithin : asked.toNat + 15 < 2 ^ 64 ∨ findFreeBlock s 0 = some 0 ∧ page = 0)
    (hcall : kmalloc s asked page = some (s', p)) (hp : p ≠ 0) : asked.toNat + 15 < 2 ^ 64 := by
  by_contra hwraps
  obtain ⟨hfind, rfl⟩ := hwithin.resolve_left hwraps
  have hnone := (kmalloc_none hfind hwraps).symm.trans hcall
  exact hp (congrArg Prod.snd (Option.some.inj hnone)).symm

/-- `kmalloc` hands out what fits in a page. -/
theorem Mallocs.fitsPage (hm : Mallocs s bs asked page s' p bs') (h : FitsPage live) :
    FitsPage (lend live p asked) := by
  have hnew : p ≠ 0 → asked.toNat + 15 < 2 ^ 64 → asked.toNat ≤ 4064 := by
    intro hp hwraps
    have hcap : ¬ heapBlockCapacity < heapAlignUp asked := by
      cases hm with
      | refused => exact absurd rfl hp
      | found hnot => exact capacity_of_not_refused hnot
      | grown hnot => exact capacity_of_not_refused hnot
    rw [BitVec.lt_def, toNat_heapAlignUp hwraps,
      show heapBlockCapacity.toNat = 4072 from by decide] at hcap
    omega
  rw [lend]
  split
  · exact h
  · rename_i hp
    exact List.forall_mem_cons.mpr ⟨hnew hp, h⟩

end Holding

/-- The invariant: the blocks stand for the live allocations, and what is known is there. -/
structure HeldInv (s : HeldRun) (bs : List Chunk) : Prop where
  represents : Represents s.run.heap bs
  lent : Lent s.run.live bs
  fits : FitsPage s.run.live
  reads : ReadsHeld s

section Holding

variable {s s' : HeldRun} {bs : List Chunk} {ptr size page : Word} {i : ℕ} {b : Byte}

theorem HeldInv.store (h : HeldInv s bs) (hi : AskedFor s.run.live ptr i)
    (hs : heldStep s (.store ptr i b) = some s') : HeldInv s' bs := by
  obtain ⟨d, hd, rfl, hlt⟩ := h.lent.asked_block h.fits hi
  obtain rfl := Option.some.inj ((if_pos hi).symm.trans hs)
  have hplace := d.toNat_payload
  have hstop : d.stop = d.addr.toNat + 24 + d.size.toNat := rfl
  refine ⟨h.represents.write (mem_inUse.mp hd).1 fun x hx => ?_, h.lent, h.fits, ?_⟩
  · exact Function.update_of_ne (by omega) _ _
  · intro ptr' j b' hj hb'
    show Function.update s.run.heap.memory (d.payload.toNat + i) b (ptr'.toNat + j) = b'
    replace hj : AskedFor s.run.live ptr' j := hj
    by_cases hsame : ptr' = d.payload
    · subst hsame
      rw [show HeldRun.held _ d.payload = _ from Function.update_self ..] at hb'
      by_cases hij : j = i
      · subst hij
        rw [Function.update_self] at hb' ⊢
        exact Option.some.inj hb'
      · rw [Function.update_of_ne hij] at hb'
        rw [Function.update_of_ne (by omega)]
        exact h.reads _ j b' hj hb'
    · rw [show HeldRun.held _ ptr' = _ from Function.update_of_ne hsame _ _] at hb'
      obtain ⟨c, hc, rfl, hlt'⟩ := h.lent.asked_block h.fits hj
      rw [Function.update_of_ne (asked_ne h.represents.listed.apart (mem_inUse.mp hc).1
        (mem_inUse.mp hd).1 hsame hlt' hlt)]
      exact h.reads _ j b' hj hb'

theorem HeldInv.kmalloc (h : HeldInv s bs) (hpage : FreshPage s.run.heap page)
    (hs : heldCall s (.kmalloc size page) = some s') : ∃ bs', HeldInv s' bs' := by
  obtain ⟨t, p, bs', hcall, hm⟩ := @kmalloc_cases s.run.heap bs size page h.represents hpage
  have hall := hm.allocates h.represents h.lent
  have hrun : heapCall s.run (.kmalloc size page) = some ⟨t, lend s.run.live p size⟩ := by
    rw [heapCall, hcall]
    rfl
  have hptr : pointerOf s.run.heap (.kmalloc size page) = p := by
    rw [pointerOf, hcall]
    rfl
  rw [heldCall, hrun, hptr] at hs
  obtain rfl := Option.some.inj hs
  refine ⟨bs', hall.represents, hall.lent, hm.fitsPage h.fits, fun ptr i b hi hb => ?_⟩
  by_cases hsame : ptr = p
  · -- what is not written is not known
    subst hsame
    rw [show HeldRun.held _ ptr = _ from Function.update_self ..] at hb
    cases hb
  · rw [show HeldRun.held _ ptr = _ from Function.update_of_ne hsame _ _] at hb
    have hi' := AskedFor.of_lend hi hsame
    obtain ⟨d, hd, hpayload, hlt⟩ := h.lent.asked_block h.fits hi'
    exact ((hm.keeps h.represents).byte hd hpayload hlt).trans (h.reads ptr i b hi' hb)

theorem HeldInv.kzalloc (h : HeldInv s bs) (hpage : FreshPage s.run.heap page)
    (hwithin : ZeroesWithin s.run (.kzalloc size page))
    (hs : heldCall s (.kzalloc size page) = some s') : ∃ bs', HeldInv s' bs' := by
  obtain ⟨t, p, bs', hcall, hm⟩ := @kmalloc_cases s.run.heap bs size page h.represents hpage
  have hz : SaturnOS.kzalloc s.run.heap size page = some (if p = 0 then (t, 0)
      else ({ t with memory := zeroBytes t.memory p size.toNat }, p)) := by
    rw [SaturnOS.kzalloc, hcall]
    rfl
  obtain ⟨u, q, bs'', m, hzcall, hm', hr⟩ := kzalloc_cases h.represents h.lent hpage hwithin
  have hlent := (hm'.allocates h.represents h.lent).lent
  have hserves := (hm'.allocates h.represents h.lent).serves
  have hrun : heapCall s.run (.kzalloc size page)
      = some ⟨{ u with memory := m }, lend s.run.live q size⟩ := by
    rw [heapCall, hzcall]
    rfl
  have hptr : pointerOf s.run.heap (.kzalloc size page) = q := by
    rw [pointerOf, hzcall]
    rfl
  have hsame := Option.some.inj (hzcall.symm.trans hz)
  rw [heldCall, hrun, hptr] at hs
  obtain rfl := Option.some.inj hs
  refine ⟨bs'', hr, hlent, hm'.fitsPage h.fits, fun ptr i b hi hb => ?_⟩
  replace hi : AskedFor (lend s.run.live q size) ptr i := hi
  show m (ptr.toNat + i) = b
  -- the block the byte is in, and the one that is zeroed
  obtain ⟨d, hd, hpayload, hlt⟩ := hlent.asked_block (hm'.fitsPage h.fits) hi
  have hzeroed : q = 0 ∧ m = t.memory ∨
      q ≠ 0 ∧ m = zeroBytes t.memory q size.toNat ∧ size.toNat + 15 < 2 ^ 64 := by
    by_cases hp : p = 0
    · rw [if_pos hp] at hsame
      obtain ⟨hheap, hq⟩ := Prod.mk.inj hsame
      exact .inl ⟨hq, congrArg Heap.memory hheap⟩
    · rw [if_neg hp] at hsame
      obtain ⟨hheap, rfl⟩ := Prod.mk.inj hsame
      exact .inr ⟨hp, congrArg Heap.memory hheap, noWrap_of_ne hwithin hcall hp⟩
  by_cases hnew : ptr = q
  · subst hnew
    rw [show HeldRun.held _ ptr = _ from Function.update_self ..] at hb
    obtain rfl := Option.some.inj hb
    obtain ⟨hq, hm0, -⟩ := hzeroed.resolve_left fun hz => d.payload_ne (hpayload.trans hz.1)
    rw [hm0]
    exact zeroed_new hlent hq hi hpayload hlt _
  · rw [show HeldRun.held _ ptr = _ from Function.update_of_ne hnew _ _] at hb
    have hi' := hi.of_lend hnew
    obtain ⟨d₀, hd₀, hpayload₀, hlt₀⟩ := h.lent.asked_block h.fits hi'
    refine Eq.trans ?_ (((hm.keeps h.represents).byte hd₀ hpayload₀ hlt₀).trans
      (h.reads ptr i b hi' hb))
    rcases hzeroed with ⟨-, hm0⟩ | ⟨hq, hm0, hwraps⟩
    · rw [hm0]
    · rw [hm0, ← hpayload]
      exact zeroed_other hr.listed.apart hserves hq hwraps (mem_inUse.mp hd).1
        (fun heq => hnew (hpayload.symm.trans heq)) hlt _

theorem HeldInv.kfree (h : HeldInv s bs) (hptr : ptr = 0 ∨ ptr ∈ s.run.live.map Prod.fst)
    (hs : heldCall s (.kfree ptr) = some s') : ∃ bs', HeldInv s' bs' := by
  obtain ⟨t, bs', hcall, hr, hf⟩ := kfree_cases h.represents h.lent hptr
  have hlent := hf.lent h.represents h.lent
  have hrun : heapCall s.run (.kfree ptr) = some ⟨t, s.run.live.filter fun a => a.1 ≠ ptr⟩ := by
    rw [heapCall, hcall]
    rfl
  rw [heldCall, hrun] at hs
  obtain rfl := Option.some.inj hs
  have hfits : FitsPage (s.run.live.filter fun a => a.1 ≠ ptr) := fun a ha =>
    h.fits a (List.mem_of_mem_filter ha)
  refine ⟨bs', hr, hlent, hfits, fun ptr' i b hi hb => ?_⟩
  obtain ⟨d, hd, hpayload, hlt⟩ := hlent.asked_block hfits hi
  obtain ⟨a, ha, rfl, hi⟩ := hi
  obtain ⟨ha, hne⟩ := List.mem_filter.mp ha
  have hne' : a.1 ≠ ptr := of_decide_eq_true hne
  rw [show HeldRun.held _ a.1 = _ from Function.update_of_ne hne' _ _] at hb
  exact ((hf.keeps h.represents hcall).byte hd hpayload hlt).trans
    (h.reads a.1 i b ⟨a, ha, rfl, hi⟩ hb)

/-- **A call.** -/
theorem HeldInv.call (h : HeldInv s bs) {op : HeapOp} (hop : Allowed s.run op)
    (hwithin : ZeroesWithin s.run op) (hs : heldCall s op = some s') : ∃ bs', HeldInv s' bs' := by
  cases op with
  | kmalloc size page => exact h.kmalloc hop hs
  | kzalloc size page => exact h.kzalloc hop hwithin hs
  | kfree ptr => exact h.kfree hop hs

/-- **The step lemma.** -/
theorem HeldInv.step (h : HeldInv s bs) {op : HeldOp} (hs : heldStep s op = some s') :
    ∃ bs', HeldInv s' bs' := by
  cases op with
  | store ptr i b =>
    obtain ⟨hi, -⟩ := Option.ite_none_right_eq_some.mp hs
    exact ⟨bs, h.store hi hs⟩
  | call op =>
    obtain ⟨⟨hop, hwithin⟩, hs⟩ := Option.ite_none_right_eq_some.mp hs
    exact h.call hop hwithin hs

theorem heldInv_init (s : Heap) : HeldInv (heldInit s) [] where
  represents := represents_init s
  lent := ⟨fun _ => Iff.rfl, List.nodup_nil, fun _ h => absurd h List.not_mem_nil⟩
  fits := fun _ h => absurd h List.not_mem_nil
  reads := fun _ _ _ _ hb => nomatch hb

end Holding

/-- **An allocation holds what is written into it**, from the call that returns it to the one that
gives it back, whatever is allocated, freed and written in between. -/
theorem allocations_hold (s : Heap) (ops : List HeldOp) :
    Always heldStep ReadsHeld (heldInit s) ops :=
  Always.of_inv (I := fun s => ∃ bs, HeldInv s bs) (fun _ _ _ ⟨_, h⟩ hs => h.step hs)
    (fun _ ⟨_, h⟩ => h.reads) ⟨[], heldInv_init s⟩ ops

end SaturnOS
