import SaturnOS.Memory.HeapMerged

/-!
# Memory/HeapAlign — where payloads begin

    page                          page mod 16 = 0
    │ header 24 │ payload …       payload mod 16 = 8
                 │ header 24 │ payload …            after 16·n bytes: payload mod 16 = 0

Sizes are rounded to `HEAP_ALIGN`, but a header has 24 bytes: a payload is aligned exactly where its
block begins between two multiples of 16, and a page never does.  A heap that has handed out
anything has handed out the front of a page first (`pointers_aligned_iff`).
-/

open Machinery

namespace SaturnOS

/-- What `kmalloc` returns is a multiple of `HEAP_ALIGN`. -/
def PointerAligned (s : Heap) (size page : Word) : Prop :=
  ∀ s' p, kmalloc s size page = some (s', p) → p ≠ 0 → heapAlign.toNat ∣ p.toNat

/-- …in a call to `kmalloc`, or to `kzalloc`, which calls it. -/
def CallAligned (s : Heap) : HeapOp → Prop
  | .kmalloc size page => PointerAligned s size page
  | .kzalloc size page => PointerAligned s size page
  | .kfree _ => True

/-- Nothing is handed out, or the first free block that is large enough begins between two multiples
of 16. -/
def StartsBetween (s : Heap) (size page : Word) : Prop :=
  Refused s size page ∨
    ∃ block, findFreeBlock s (heapAlignUp size) = some block ∧ block ≠ 0 ∧ block.toNat % 16 = 8

/-- The call is for nothing or for too much, or no page is left. -/
def GetsNoPage : HeapOp → Prop
  | .kmalloc size page => size = 0 ∨ heapBlockCapacity < heapAlignUp size ∨ page = 0
  | .kzalloc size page => size = 0 ∨ heapBlockCapacity < heapAlignUp size ∨ page = 0
  | .kfree _ => True

section Calls

variable {s s' : Heap} {bs bs' : List Chunk} {size page p : Word}

/-- A payload is aligned where its header is not. -/
theorem payload_aligned (b : Chunk) :
    heapAlign.toNat ∣ b.payload.toNat ↔ b.addr.toNat % 16 = 8 := by
  rw [b.toNat_payload, show heapAlign.toNat = 16 from rfl]
  omega

/-- The payload of a page is not. -/
theorem pageChunk_payload (hpage : PageOk page) :
    ¬ heapAlign.toNat ∣ (pageChunk page hpage.ne hpage.below).payload.toNat := by
  rw [payload_aligned]
  have haligned := hpage.aligned
  show ¬ page.toNat % 16 = 8
  omega

/-- **`kmalloc` returns an aligned pointer** where the block it finds begins between two multiples
of 16. -/
theorem pointerAligned_iff (h : Represents s bs) (hpage : FreshPage s page) :
    PointerAligned s size page ↔ StartsBetween s size page := by
  obtain ⟨s', p, bs', hcall, hm⟩ := @kmalloc_cases s bs size page h hpage
  have hptr : PointerAligned s size page ↔ (p ≠ 0 → heapAlign.toNat ∣ p.toNat) := by
    refine ⟨fun hall => hall s' p hcall, fun hp t q hq => ?_⟩
    obtain ⟨-, rfl⟩ := Prod.mk.inj (Option.some.inj (hcall.symm.trans hq))
    exact hp
  rw [hptr]
  cases hm with
  | refused hrefused => exact iff_of_true (fun hn => absurd rfl hn) (.inl hrefused)
  | @found l r b hnot _ _ hfind =>
    rw [payload_aligned]
    constructor
    · exact fun hb => .inr ⟨b.addr, hfind, b.addr_ne, hb b.payload_ne⟩
    · rintro (hrefused | ⟨block, hblock, -, hmod⟩) _
      · exact absurd hrefused hnot
      · obtain rfl := Option.some.inj (hfind.symm.trans hblock)
        exact hmod
  | grown hnot hpage _ hfind =>
    refine iff_of_false (fun hall => pageChunk_payload hpage (hall (Chunk.payload_ne _))) ?_
    rintro (hrefused | ⟨block, hblock, hne, -⟩)
    · exact hnot hrefused
    · exact hne (Option.some.inj (hfind.symm.trans hblock)).symm

/-- In a heap of no blocks a call is refused, or takes a page. -/
theorem refused_of_no_page (h : Represents s [])
    (hnone : size = 0 ∨ heapBlockCapacity < heapAlignUp size ∨ page = 0) : Refused s size page :=
  hnone.imp_right fun h' => h'.imp_right fun h0 =>
    ⟨find_listed h.listed.linked h.length_lt, h0⟩

/-- **The first pointer that is handed out is not aligned.** -/
theorem pointerAligned_empty (h : Represents s []) (hpage : FreshPage s page) :
    PointerAligned s size page ↔ size = 0 ∨ heapBlockCapacity < heapAlignUp size ∨ page = 0 := by
  rw [pointerAligned_iff h hpage]
  have hfind : findFreeBlock s (heapAlignUp size) = some 0 :=
    find_listed h.listed.linked h.length_lt
  constructor
  · rintro (hrefused | ⟨block, hblock, hne, -⟩)
    · exact hrefused.imp_right fun h' => h'.imp_right And.right
    · exact absurd (Option.some.inj (hfind.symm.trans hblock)).symm hne
  · exact fun hnone => .inl (refused_of_no_page h hnone)

theorem Mallocs.empty (h : Represents s []) (hm : Mallocs s [] size page s' p bs')
    (hnone : size = 0 ∨ heapBlockCapacity < heapAlignUp size ∨ page = 0) : bs' = [] := by
  cases hm with
  | refused => rfl
  | found hnot => exact absurd (refused_of_no_page h hnone) hnot
  | grown hnot => exact absurd (refused_of_no_page h hnone) hnot

end Calls

/-- Nothing has been handed out, and no page taken. -/
def HeapEmpty (s : HeapRun) : Prop := Represents s.heap [] ∧ Lent s.live []

/-- A heap without blocks stays one while no call gets a page, and this is when pointers are
aligned. -/
theorem heapEmpty_step {s s' : HeapRun} (h : HeapEmpty s) {op : HeapOp}
    (hstep : heapReturn s op = some s') :
    (CallAligned s.heap op ↔ GetsNoPage op) ∧ (GetsNoPage op → HeapEmpty s') := by
  obtain ⟨hr, hl⟩ := h
  obtain ⟨-, hallowed⟩ := Option.ite_none_right_eq_some.mp hstep
  obtain ⟨hop, -⟩ := Option.ite_none_right_eq_some.mp hallowed
  obtain ⟨bs', hr', hl', hshape⟩ := heapReturn_reshaped hr hl hstep
  cases hshape with
  | kmalloc hm =>
    refine ⟨pointerAligned_empty hr hop, fun hnone => ?_⟩
    obtain rfl := hm.empty hr hnone
    exact ⟨hr', hl'⟩
  | kzalloc m hm =>
    refine ⟨pointerAligned_empty hr hop, fun hnone => ?_⟩
    obtain rfl := hm.empty hr hnone
    exact ⟨hr', hl'⟩
  | kfree _ hf =>
    refine ⟨Iff.rfl, fun _ => ?_⟩
    cases hf with
    | null => exact ⟨hr', hl'⟩
    | freed hbs => simp at hbs

/-- **Pointers are aligned along a run exactly if it hands out none**; and in every state a call
returns an aligned pointer exactly if the block it finds begins between two multiples of 16. -/
theorem pointers_aligned_iff (s : Heap) (ops : List HeapOp) :
    (Along heapReturn (fun s op _ => CallAligned s.heap op) (heapRunInit s) ops ↔
        Along heapReturn (fun _ op _ => GetsNoPage op) (heapRunInit s) ops) ∧
      Always heapReturn (fun s => ∀ size page, Allowed s (.kmalloc size page) →
        (PointerAligned s.heap size page ↔ StartsBetween s.heap size page))
        (heapRunInit s) ops := by
  have hinit := heapTidy_init s
  refine ⟨Along.iff_of_inv (T := heapReturn) (J := HeapEmpty)
    (C := fun s op _ => CallAligned s.heap op) (D := fun _ op _ => GetsNoPage op)
    (fun _ _ _ h hstep => heapEmpty_step h hstep)
    ⟨hinit.represents, hinit.lent⟩, ?_⟩
  exact Always.of_inv (I := fun s => ∃ bs, HeapTidy s bs)
    (fun _ _ _ ⟨_, h⟩ hstep => heapTidy_step h hstep)
    (fun _ ⟨_, h⟩ _ _ hop => pointerAligned_iff h.represents hop) ⟨[], hinit⟩ ops

/-- **The defect**: the first allocation of all is 8 bytes off. -/
theorem first_pointer_misaligned : ¬ Along heapReturn (fun s op _ => CallAligned s.heap op)
    (heapRunInit emptyHeap) [.kmalloc 64 0x40300000] := by
  intro hall
  have hgot : (kmalloc emptyHeap 64 0x40300000).map Prod.snd = some 0x40300018 := by decide +kernel
  obtain ⟨⟨t, p⟩, hcall, hp⟩ := Option.map_eq_some_iff.mp hgot
  obtain rfl : p = 0x40300018 := hp
  have hstep : heapReturn (heapRunInit emptyHeap) (.kmalloc 64 0x40300000)
      = some ⟨t, lend [] 0x40300018 64⟩ := by
    refine (if_pos (show ZeroesWithin _ (.kmalloc 64 0x40300000) from trivial)).trans ?_
    rw [heapStep, if_pos (by decide), heapCall]
    have hcall' : kmalloc (heapRunInit emptyHeap).heap 64 0x40300000 = some (t, 0x40300018) := hcall
    rw [hcall']
    rfl
  have haligned := (hall _ hstep).1 t 0x40300018 hcall (by decide)
  exact absurd haligned (by decide)

end SaturnOS
