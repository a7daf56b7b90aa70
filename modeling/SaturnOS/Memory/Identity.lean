import SaturnOS.Memory.Vm

/-!
# Memory/Identity — the built tables, entry by entry

    L1[0] ──▸ L2 0 : blocks 64 … 80           the device window
    L1[1] ──▸ L2 1 : [0] ──▸ L3 : 512 pages   the kernel's 2 MiB, guards left out
                     blocks 513 … 575         the rest of the RAM

`build_tables` always succeeds, and what it leaves is `Built`: block `b` is the 2 MiB at `b · 2²¹`,
page `p` the 4 KiB at `p · 2¹²`, each mapped to itself.
-/

open Machinery

namespace SaturnOS

/-! ## Blocks and pages by number -/

/-- The 2 MiB block of a number. -/
def blockAddress (b : ℕ) : Word := BitVec.ofNat 64 (b * 2 ^ 21)

/-- The page of a number. -/
def pageAddress (p : ℕ) : Word := BitVec.ofNat 64 (p * 2 ^ 12)

theorem blockAddress_succ (b : ℕ) : blockAddress b + arm64L2BlockSize = blockAddress (b + 1) := by
  rw [blockAddress, blockAddress, show arm64L2BlockSize = BitVec.ofNat 64 (2 ^ 21) from rfl,
    ← BitVec.ofNat_add, Nat.succ_mul]

theorem toNat_blockAddress {b : ℕ} (h : b < 2 ^ 18) : (blockAddress b).toNat = b * 2 ^ 21 := by
  rw [blockAddress, BitVec.toNat_ofNat, Nat.mod_eq_of_lt (by omega)]

theorem toNat_pageAddress {p : ℕ} (h : p < 2 ^ 27) : (pageAddress p).toNat = p * 2 ^ 12 := by
  rw [pageAddress, BitVec.toNat_ofNat, Nat.mod_eq_of_lt (by omega)]

theorem l1Index_eq (a : Word) : arm64MmuL1Index a = BitVec.ofNat 64 (a.toNat / 2 ^ 30 % 512) :=
  BitVec.eq_of_toNat_eq ((toNat_field 30 9 a (by decide)).trans
    (Nat.mod_eq_of_lt (by omega)).symm)

theorem l1Index_block {g i : ℕ} (hg : g < 512) (hi : i < 512) :
    arm64MmuL1Index (blockAddress (g * 512 + i)) = BitVec.ofNat 64 g := by
  rw [l1Index_eq, toNat_blockAddress (by omega)]
  congr 1
  omega

theorem l2Index_block {g i : ℕ} (hg : g < 512) (hi : i < 512) :
    tableIndex (arm64MmuL2Index (blockAddress (g * 512 + i))) = ⟨i, hi⟩ := by
  refine Fin.ext ?_
  rw [tableIndex_l2, toNat_blockAddress (by omega)]
  change _ = i
  omega

/-! ## The pool -/

/-- `find_l2_table`. -/
def findL2Table (l1Index : Word) (st : VmState) : Option (Fin 4) :=
  (List.finRange 4).find? fun slot =>
    decide (slot.val < st.usedL2Tables) && (st.l2Slots slot).used
      && (st.l2Slots slot).l1Index == l1Index

theorem findL2Table_congr {st st' : VmState} (hs : st'.l2Slots = st.l2Slots)
    (hu : st'.usedL2Tables = st.usedL2Tables) (l1Index : Word) :
    findL2Table l1Index st' = findL2Table l1Index st := by
  rw [findL2Table, findL2Table, hs, hu]

variable {L : Layout} {img : Image}

theorem getL2Table_found {l1Index : Word} {st : VmState} {slot : Fin 4}
    (h : findL2Table l1Index st = some slot) : getL2Table L l1Index st = (st, some slot) := by
  rw [findL2Table] at h
  rw [getL2Table, h]

/-- The state after a fresh table is taken from the pool. -/
def takeL2 (L : Layout) (l1Index : Word) (slot : Fin 4) (st : VmState) : VmState :=
  { st with
    usedL2Tables := st.usedL2Tables + 1
    l2Slots := Function.update st.l2Slots slot { l1Index := l1Index, used := true }
    tables := (clearTable st.tables (.vmL2 slot)).set .vmL1 (tableIndex l1Index)
      (arm64MmuTableDesc (L.table (.vmL2 slot))) }

theorem getL2Table_taken {l1Index : Word} {st : VmState} {slot : Fin 4}
    (h : findL2Table l1Index st = none) (hslot : st.usedL2Tables = slot.val) :
    getL2Table L l1Index st = (takeL2 L l1Index slot st, some slot) := by
  rw [findL2Table] at h
  have hlt : st.usedL2Tables < vmL2TableCapacity := by
    rw [hslot]
    exact slot.isLt
  have heq : (⟨st.usedL2Tables, hlt⟩ : Fin 4) = slot := Fin.ext hslot
  rw [getL2Table, h]
  dsimp only
  rw [dif_pos hlt, heq]
  rfl

/-! ## A region -/

/-- `n` blocks of L1 entry `g`, from L2 entry `i`, mapped to themselves. -/
def fillBlocks (attributes : Word) (slot : Fin 4) (g i n : ℕ) (st : VmState) : VmState :=
  { st with
    tables := Function.update st.tables (.vmL2 slot) fun j =>
      if i ≤ j.val ∧ j.val < i + n then arm64MmuL2BlockDesc (blockAddress (g * 512 + j)) attributes
      else st.tables (.vmL2 slot) j
    xnBlocks := st.xnBlocks + BitVec.ofNat 64 n
    blocksMapped := st.blocksMapped + BitVec.ofNat 64 n
    bytesMapped := st.bytesMapped + BitVec.ofNat 64 n * arm64L2BlockSize }

theorem fillBlocks_zero (attributes : Word) (slot : Fin 4) (g i : ℕ) (st : VmState) :
    fillBlocks attributes slot g i 0 st = st := by
  have htables : (fun j : Fin 512 => if i ≤ j.val ∧ j.val < i + 0
      then arm64MmuL2BlockDesc (blockAddress (g * 512 + j)) attributes
      else st.tables (.vmL2 slot) j) = st.tables (.vmL2 slot) := by
    funext j
    exact if_neg (by omega)
  rw [fillBlocks, htables, Function.update_eq_self]
  simp

/-- Filling goes on from where a first filling ended. -/
theorem fillBlocks_succ (attributes : Word) (slot : Fin 4) (g i n : ℕ) (st : VmState) :
    fillBlocks attributes slot g (i + 1) n (fillBlocks attributes slot g i 1 st)
      = fillBlocks attributes slot g i (n + 1) st := by
  have htables : (fun j : Fin 512 => if i + 1 ≤ j.val ∧ j.val < i + 1 + n
      then arm64MmuL2BlockDesc (blockAddress (g * 512 + j)) attributes
      else (fillBlocks attributes slot g i 1 st).tables (.vmL2 slot) j)
      = fun j : Fin 512 => if i ≤ j.val ∧ j.val < i + (n + 1)
        then arm64MmuL2BlockDesc (blockAddress (g * 512 + j)) attributes
        else st.tables (.vmL2 slot) j := by
    funext j
    simp only [fillBlocks, Function.update_self]
    split_ifs <;> first | rfl | omega
  have hcount : ∀ w u : Word, w + BitVec.ofNat 64 1 * u + BitVec.ofNat 64 n * u
      = w + BitVec.ofNat 64 (n + 1) * u := by
    intro w u
    rw [Nat.add_comm n 1, BitVec.ofNat_add, BitVec.add_mul, BitVec.add_assoc]
  have hone : ∀ w : Word, w + BitVec.ofNat 64 1 + BitVec.ofNat 64 n
      = w + BitVec.ofNat 64 (n + 1) := by
    intro w
    rw [Nat.add_comm n 1, BitVec.ofNat_add, BitVec.add_assoc]
  conv_lhs => rw [fillBlocks, htables]
  simp only [fillBlocks, Function.update_idem, hcount, hone]

theorem mapBlock_eq {attributes : Word} (slot : Fin 4) {g i : ℕ} (hg : g < 512) (hi : i < 512)
    (hxn : ∀ p, arm64MmuDescIsExecuteNever (arm64MmuL2BlockDesc p attributes) = true)
    (st : VmState) : mapBlock attributes (blockAddress (g * 512 + i)) (blockAddress (g * 512 + i))
    slot st
      = fillBlocks attributes slot g i 1 st := by
  have htables : st.tables.set (.vmL2 slot) ⟨i, hi⟩
      (arm64MmuL2BlockDesc (blockAddress (g * 512 + i)) attributes)
      = Function.update st.tables (.vmL2 slot) fun j => if i ≤ j.val ∧ j.val < i + 1
        then arm64MmuL2BlockDesc (blockAddress (g * 512 + j)) attributes
        else st.tables (.vmL2 slot) j := by
    rw [Tables.set]
    congr 1
    funext j
    by_cases hj : j = ⟨i, hi⟩
    · subst hj
      rw [Function.update_self, if_pos ⟨le_rfl, Nat.lt_succ_self i⟩]
    · have hne : j.val ≠ i := fun h => hj (Fin.ext h)
      rw [Function.update_of_ne hj, if_neg (by omega)]
  rw [mapBlock, l2Index_block hg hi, htables, countBlock, if_pos (hxn _), fillBlocks,
    show BitVec.ofNat 64 1 * arm64L2BlockSize = arm64L2BlockSize from by decide]
  rfl

/-- **The block loop fills**, once its table is in the pool. -/
theorem mapBlocks_filled {attributes : Word} {slot : Fin 4} {g : ℕ} (hg : g < 512)
    (hxn : ∀ p, arm64MmuDescIsExecuteNever (arm64MmuL2BlockDesc p attributes) = true) (n i : ℕ)
    (hn : i + n ≤ 512) (st : VmState) (hpool : findL2Table (BitVec.ofNat 64 g) st = some slot) :
    mapBlocks L attributes n (blockAddress (g * 512 + i)) (blockAddress (g * 512 + i)) st
      = (fillBlocks attributes slot g i n st, true) := by
  induction n generalizing i st with
  | zero => rw [mapBlocks, fillBlocks_zero]
  | succ n ih =>
    have hi : i < 512 := by omega
    rw [mapBlocks, l1Index_block hg hi, getL2Table_found hpool]
    dsimp only
    have hpool' : findL2Table (BitVec.ofNat 64 g) (fillBlocks attributes slot g i 1 st)
        = some slot :=
      (findL2Table_congr rfl rfl _).trans hpool
    rw [mapBlock_eq slot hg hi hxn, blockAddress_succ, Nat.add_assoc, ih (i + 1) (by omega) _
      hpool',
      fillBlocks_succ]

/-- …and so it does where it has to take the table first. -/
theorem mapBlocks_taken {attributes : Word} {slot : Fin 4} {g : ℕ} (hg : g < 512)
    (hxn : ∀ p, arm64MmuDescIsExecuteNever (arm64MmuL2BlockDesc p attributes) = true) {n i : ℕ}
    (hn : i + (n + 1) ≤ 512) {st : VmState} (hnone : findL2Table (BitVec.ofNat 64 g) st = none)
    (hslot : st.usedL2Tables = slot.val)
    (htaken : findL2Table (BitVec.ofNat 64 g) (takeL2 L (BitVec.ofNat 64 g) slot st) = some slot) :
    mapBlocks L attributes (n + 1) (blockAddress (g * 512 + i)) (blockAddress (g * 512 + i)) st
      = (fillBlocks attributes slot g i (n + 1) (takeL2 L (BitVec.ofNat 64 g) slot st), true) := by
  have hfound := mapBlocks_filled (L := L) hg hxn (n + 1) i hn _ htaken
  rw [mapBlocks, l1Index_block hg (by omega), getL2Table_found htaken] at hfound
  rw [mapBlocks, l1Index_block hg (by omega), getL2Table_taken hnone hslot]
  exact hfound

/-! ## The kernel's 2 MiB, by pages -/

/-- The `i`-th page of the kernel's 2 MiB. -/
def kernelPage (i : Fin 512) : Word := pageAddress (0x40000 + i)

theorem kernelPage_eq (i : Fin 512) :
    vmKernelL3Base + BitVec.ofNat 64 i.val * arm64PageSize = kernelPage i := by
  have hbase : vmKernelL3Base = BitVec.ofNat 64 (0x40000 * 2 ^ 12) := by decide
  have hsize : arm64PageSize = BitVec.ofNat 64 (2 ^ 12) := by decide
  rw [kernelPage, pageAddress, hbase, hsize, ← BitVec.ofNat_mul, ← BitVec.ofNat_add, ← Nat.add_mul]

theorem toNat_kernelPage (i : Fin 512) : (kernelPage i).toNat = (0x40000 + i) * 2 ^ 12 :=
  toNat_pageAddress (by omega)

/-- The descriptor of the `i`-th page. -/
def kernelPageDesc (img : Image) (i : Fin 512) : Word :=
  arm64MmuL3PageDesc (kernelPage i) (kernelPageAttributes img (kernelPage i))

/-- The pages of the list that are guards. -/
def guardCount (img : Image) (is : List (Fin 512)) : ℕ :=
  is.countP fun i => vmAddressIsGuardPage img (kernelPage i)

/-- **What the page loop changes**: the L3 entries, guards left as they were, and its counts. -/
structure PagesMapped (img : Image) (is : List (Fin 512)) (st st' : VmState) : Prop where
  l3 : ∀ i, st'.tables .vmKernelL3 i =
    if i ∈ is ∧ vmAddressIsGuardPage img (kernelPage i) = false then kernelPageDesc img i
    else st.tables .vmKernelL3 i
  others : ∀ id, id ≠ .vmKernelL3 → st'.tables id = st.tables id
  slots : st'.l2Slots = st.l2Slots
  used : st'.usedL2Tables = st.usedL2Tables
  blocks : st'.blocksMapped = st.blocksMapped
  guards : st'.guardPages = st.guardPages + BitVec.ofNat 64 (guardCount img is)
  pages : st'.pagesMapped = st.pagesMapped + BitVec.ofNat 64 (is.length - guardCount img is)

theorem mapKernelPage_mapped (i : Fin 512) (st : VmState) :
    PagesMapped img [i] st (mapKernelPage img st i) := by
  rw [mapKernelPage, kernelPage_eq]
  dsimp only
  split
  · rename_i hguard
    have hcount : guardCount img [i] = 1 := List.countP_singleton.trans (if_pos hguard)
    refine ⟨fun j => (if_neg fun h => ?_).symm, fun _ _ => rfl, rfl, rfl, rfl, ?_, ?_⟩
    · rw [List.mem_singleton.mp h.1, hguard] at h
      exact Bool.noConfusion h.2
    · rw [hcount]
      rfl
    · rw [hcount]
      exact (BitVec.add_zero _).symm
  · rename_i hguard
    have hcount : guardCount img [i] = 0 := List.countP_singleton.trans (if_neg hguard)
    have hguard' : vmAddressIsGuardPage img (kernelPage i) = false := by simpa using hguard
    rw [← kernelPageDesc]
    have hset : ∀ st' : VmState,
        st'.tables = st.tables.set .vmKernelL3 i (kernelPageDesc img i) → st'.l2Slots = st.l2Slots →
        st'.usedL2Tables = st.usedL2Tables → st'.blocksMapped = st.blocksMapped →
        st'.guardPages = st.guardPages → st'.pagesMapped = st.pagesMapped + 1 →
        PagesMapped img [i] st st' := by
      intro st' hT hs hu hb hg hp
      refine ⟨fun j => ?_, fun id hid => ?_, hs, hu, hb, ?_, ?_⟩
      · rw [hT]
        by_cases hj : j = i
        · rw [hj, Tables.set_same, if_pos ⟨List.mem_singleton_self i, hguard'⟩]
        · rw [Tables.set_index_ne _ _ hj, if_neg fun h => hj (List.mem_singleton.mp h.1)]
      · rw [hT, Tables.set_of_ne _ hid]
      · rw [hg, hcount]
        exact (BitVec.add_zero _).symm
      · rw [hp, hcount]
        rfl
    split <;> exact hset _ rfl rfl rfl rfl rfl rfl

theorem PagesMapped.cons {i : Fin 512} {is : List (Fin 512)} {st st' st'' : VmState}
    (h : PagesMapped img [i] st st') (h' : PagesMapped img is st' st'') :
    PagesMapped img (i :: is) st st'' := by
  have hcons : guardCount img (i :: is) = guardCount img is + guardCount img [i] := by
    rw [guardCount, guardCount, guardCount, List.countP_cons, List.countP_singleton]
  have hle : guardCount img is ≤ is.length := List.countP_le_length
  have hone : guardCount img [i] ≤ 1 := List.countP_le_length
  refine ⟨fun j => ?_, fun id hid => (h'.others id hid).trans (h.others id hid),
    h'.slots.trans h.slots, h'.used.trans h.used, h'.blocks.trans h.blocks, ?_, ?_⟩
  · rw [h'.l3, h.l3]
    simp only [List.mem_cons, List.not_mem_nil, or_false]
    split_ifs <;> tauto
  · rw [h'.guards, h.guards, hcons, BitVec.add_assoc, ← BitVec.ofNat_add, Nat.add_comm]
  · have hlen : (i :: is).length - guardCount img (i :: is)
        = ([i].length - guardCount img [i]) + (is.length - guardCount img is) := by
      rw [hcons, List.length_cons, List.length_singleton]
      omega
    rw [h'.pages, h.pages, hlen, BitVec.add_assoc, ← BitVec.ofNat_add]

theorem foldl_mapKernelPage (is : List (Fin 512)) (st : VmState) :
    PagesMapped img is st (is.foldl (mapKernelPage img) st) := by
  induction is generalizing st with
  | nil =>
    refine ⟨fun _ => (if_neg fun h => List.not_mem_nil h.1).symm, fun _ _ => rfl, rfl, rfl, rfl, ?_,
      ?_⟩
    · exact (BitVec.add_zero _).symm
    · exact (BitVec.add_zero _).symm
  | cons i is ih => exact (mapKernelPage_mapped i st).cons (ih _)

/-! ## The build -/

/-- **The built tables**, entry by entry. -/
structure BuiltTables (L : Layout) (img : Image) (T : Tables) : Prop where
  l1 : ∀ i, T .vmL1 i = if i = 0 then arm64MmuTableDesc (L.table (.vmL2 0))
    else if i = 1 then arm64MmuTableDesc (L.table (.vmL2 1)) else 0
  devices : ∀ j, T (.vmL2 0) j = if 64 ≤ j.val ∧ j.val < 81
    then arm64MmuL2BlockDesc (blockAddress j) arm64DeviceMemoryAttr else 0
  ram : ∀ j, T (.vmL2 1) j = if j.val = 0 then arm64MmuTableDesc (L.table .vmKernelL3)
    else if j.val < 64 then arm64MmuL2BlockDesc (blockAddress (512 + j)) vmNormalXnMemoryAttr else 0
  l3 : ∀ i, T .vmKernelL3 i =
    if vmAddressIsGuardPage img (kernelPage i) = false then kernelPageDesc img i else 0

/-- …with the pool and the counts. -/
structure Built (L : Layout) (img : Image) (st : VmState) : Prop where
  tables : BuiltTables L img st.tables
  used : st.usedL2Tables = 2
  slot0 : st.l2Slots 0 = ⟨0, true⟩
  slot1 : st.l2Slots 1 = ⟨1, true⟩
  blocks : st.blocksMapped = 80
  guards : st.guardPages = BitVec.ofNat 64 (guardCount img (List.finRange 512))
  pages : st.pagesMapped = BitVec.ofNat 64 (512 - guardCount img (List.finRange 512))

/-- The built tables are read at no user table. -/
theorem BuiltTables.congr {T T' : Tables} (h : BuiltTables L img T) (h1 : T' .vmL1 = T .vmL1)
    (h2 : ∀ s, T' (.vmL2 s) = T (.vmL2 s)) (h3 : T' .vmKernelL3 = T .vmKernelL3) :
    BuiltTables L img T' where
  l1 := by simpa only [h1] using h.l1
  devices := by simpa only [h2] using h.devices
  ram := by simpa only [h2] using h.ram
  l3 := by simpa only [h3] using h.l3

theorem clearVmTables_vm (T : Tables) :
    clearVmTables T .vmL1 = (fun _ => 0) ∧ (∀ slot, clearVmTables T (.vmL2 slot) = fun _ => 0)
      ∧ clearVmTables T .vmKernelL3 = fun _ => 0 := by
  have h4 : List.finRange 4 = [0, 1, 2, 3] := by decide
  refine ⟨by simp [clearVmTables, clearTable, h4], fun slot => ?_,
    by simp [clearVmTables, clearTable, h4]⟩
  have hslot : ∀ s : Fin 4, s = 0 ∨ s = 1 ∨ s = 2 ∨ s = 3 := by decide
  rcases hslot slot with rfl | rfl | rfl | rfl <;> simp [clearVmTables, clearTable, h4]

/-- The state before the regions. -/
def clearedVm (T : Tables) : VmState := { tables := clearVmTables T }

/-- The device window in place. -/
def devicesMapped (L : Layout) (T : Tables) : VmState :=
  fillBlocks arm64DeviceMemoryAttr 0 0 64 17 (takeL2 L 0 0 (clearedVm T))

/-- The RAM in place, all of it by blocks. -/
def ramMapped (L : Layout) (T : Tables) : VmState :=
  fillBlocks vmNormalXnMemoryAttr 1 1 0 64 (takeL2 L 1 1 (devicesMapped L T))

theorem executeNever_blockDesc {attributes : Word} (p : Word)
    (h : attributes &&& (arm64DescPxn ||| arm64DescUxn) = arm64DescPxn ||| arm64DescUxn) :
    arm64MmuDescIsExecuteNever (arm64MmuL2BlockDesc p attributes) = true := by
  have hbits : arm64MmuL2BlockDesc p attributes &&& (arm64DescPxn ||| arm64DescUxn) ≠ 0 := by
    rw [arm64MmuL2BlockDesc, BitVec.and_or_distrib_right, BitVec.and_or_distrib_right, h]
    intro hzero
    have hmask := (BitVec.or_eq_zero_iff.mp (BitVec.or_eq_zero_iff.mp hzero).1).2
    exact absurd hmask (by decide)
  simpa [arm64MmuDescIsExecuteNever] using hbits

theorem mapRegions_eq (L : Layout) (T : Tables) :
    mapRegions L vmRegions (clearedVm T) = (ramMapped L T, true) := by
  have hdevice : mapRegion L vmMmio (clearedVm T) = (devicesMapped L T, true) := by
    rw [mapMmio_eq]
    exact mapBlocks_taken (g := 0) (i := 64) (by omega)
      (fun p => executeNever_blockDesc p (by decide))
      (by omega) (by simp [findL2Table, clearedVm]) rfl
        (by simp [findL2Table, takeL2, clearedVm]; decide)
  have hram : mapRegion L vmRam (devicesMapped L T) = (ramMapped L T, true) := by
    rw [mapRam_eq]
    exact mapBlocks_taken (g := 1) (i := 0) (by omega)
      (fun p => executeNever_blockDesc p (by decide))
      (by omega) (by simp [findL2Table, devicesMapped, fillBlocks, takeL2, clearedVm]) rfl
      (by simp [findL2Table, devicesMapped, fillBlocks, takeL2, clearedVm]; decide)
  rw [vmRegions, mapRegions, hdevice]
  dsimp only
  rw [mapRegions, hram]
  rfl

theorem ramMapped_l1 (L : Layout) (T : Tables) (i : Fin 512) : (ramMapped L T).tables .vmL1 i =
    if i = 0 then arm64MmuTableDesc (L.table (.vmL2 0))
    else if i = 1 then arm64MmuTableDesc (L.table (.vmL2 1)) else 0 := by
  have hfirst : (devicesMapped L T).tables .vmL1
      = Function.update (fun _ => 0) 0 (arm64MmuTableDesc (L.table (.vmL2 0))) := by
    have h0 : tableIndex 0 = 0 := by decide
    have hclear := (clearVmTables_vm T).1
    simp only [devicesMapped, fillBlocks, takeL2, clearedVm, clearTable, Tables.set, h0]
    simp [hclear]
  have h1 : tableIndex 1 = 1 := by decide
  have hsecond : (ramMapped L T).tables .vmL1 = Function.update ((devicesMapped L T).tables .vmL1) 1
      (arm64MmuTableDesc (L.table (.vmL2 1))) := by
    simp only [ramMapped, fillBlocks, takeL2, clearTable, Tables.set, h1]
    simp
  rw [hsecond, hfirst]
  by_cases hi1 : i = 1
  · subst hi1
    rw [Function.update_self, if_neg (by decide), if_pos rfl]
  · rw [Function.update_of_ne hi1, if_neg hi1]
    exact Function.update_apply _ _ _ _

theorem ramMapped_l2 (L : Layout) (T : Tables) (j : Fin 512) :
    (ramMapped L T).tables (.vmL2 0) j = (if 64 ≤ j.val ∧ j.val < 81
      then arm64MmuL2BlockDesc (blockAddress j) arm64DeviceMemoryAttr else 0)
    ∧ (ramMapped L T).tables (.vmL2 1) j = if j.val < 64
      then arm64MmuL2BlockDesc (blockAddress (512 + j)) vmNormalXnMemoryAttr else 0 := by
  constructor <;> simp [ramMapped, devicesMapped, fillBlocks, takeL2, clearTable, Tables.set]

theorem uncountBlock_counts {d : Word} (hblock : arm64MmuDescIsL2Block d = true) (st : VmState) :
    (uncountBlock d st).tables = st.tables ∧ (uncountBlock d st).blocksMapped = st.blocksMapped - 1
      ∧ (uncountBlock d st).guardPages = st.guardPages
      ∧ (uncountBlock d st).pagesMapped = st.pagesMapped := by
  rw [uncountBlock, if_pos hblock]
  split <;> exact ⟨rfl, rfl, rfl, rfl⟩

theorem mapKernelL3Block_built (L : Layout) (img : Image) (T : Tables) :
    (mapKernelL3Block L img (ramMapped L T)).2 = true
      ∧ Built L img (mapKernelL3Block L img (ramMapped L T)).1 := by
  have hpool : findL2Table (arm64MmuL1Index vmKernelL3Base) (ramMapped L T) = some 1 := by
    simp [findL2Table, ramMapped, devicesMapped, fillBlocks, takeL2, clearedVm]
    decide
  have hindex : tableIndex (arm64MmuL2Index vmKernelL3Base) = 0 := by decide
  have hfold := @foldl_mapKernelPage img (List.finRange 512)
    { ramMapped L T with tables := clearTable (ramMapped L T).tables .vmKernelL3 }
  rw [mapKernelL3Block, getL2Table_found hpool, hindex]
  dsimp only
  generalize (List.finRange 512).foldl (mapKernelPage img)
    { ramMapped L T with tables := clearTable (ramMapped L T).tables .vmKernelL3 } = st at hfold ⊢
  have hothers : ∀ id, id ≠ .vmKernelL3 → st.tables id = (ramMapped L T).tables id := fun id hid =>
    (hfold.others id hid).trans (Function.update_of_ne hid _ _)
  have hd : st.tables (.vmL2 1) 0
      = arm64MmuL2BlockDesc (blockAddress 512) vmNormalXnMemoryAttr := by
    rw [hothers _ (by simp), (ramMapped_l2 L T 0).2]
    rfl
  have hblock : arm64MmuDescIsL2Block (st.tables (.vmL2 1) 0) = true := by
    rw [hd]
    exact descIsL2Block_l2BlockDesc _ kernelOnly_normalXn.leaf
  obtain ⟨htables, hblocks, hguards, hpages⟩ := uncountBlock_counts hblock st
  obtain ⟨hslots, hused⟩ := uncountBlock_pool (st.tables (.vmL2 1) 0) st
  refine ⟨rfl, ⟨⟨fun i => ?_, fun j => ?_, fun j => ?_, fun i => ?_⟩, ?_, ?_, ?_, ?_, ?_, ?_⟩⟩
  · dsimp only
    rw [Tables.set_of_ne _ (by simp), htables, hothers _ (by simp), ramMapped_l1]
  · dsimp only
    rw [Tables.set_of_ne _ (by simp), htables, hothers _ (by simp), (ramMapped_l2 L T j).1]
  · dsimp only
    by_cases hj : j = 0
    · subst hj
      rw [Tables.set_same]
      exact (if_pos rfl).symm
    · have hne : j.val ≠ 0 := fun h => hj (Fin.ext h)
      rw [Tables.set_index_ne _ _ hj, htables, hothers _ (by simp), (ramMapped_l2 L T j).2,
        if_neg hne]
  · dsimp only
    rw [Tables.set_of_ne _ (by simp), htables, hfold.l3]
    simp [clearTable]
  · dsimp only
    rw [hused, hfold.used]
    rfl
  · dsimp only
    rw [hslots, hfold.slots]
    rfl
  · dsimp only
    rw [hslots, hfold.slots]
    rfl
  · dsimp only
    rw [hblocks, hfold.blocks]
    change (0 : Word) + BitVec.ofNat 64 17 + BitVec.ofNat 64 64 - 1 = 80
    decide
  · dsimp only
    rw [hguards, hfold.guards]
    exact BitVec.zero_add _
  · dsimp only
    rw [hpages, hfold.pages, List.length_finRange]
    exact BitVec.zero_add _

/-- **The build succeeds**, with every entry in place. -/
theorem buildTables_built (L : Layout) (img : Image) (T : Tables) :
    (buildTables L img T).2 = true ∧ Built L img (buildTables L img T).1 := by
  have hregions : mapRegions L vmRegions { tables := clearVmTables T } = (ramMapped L T, true) :=
    mapRegions_eq L T
  unfold buildTables
  rewrite [hregions]
  exact mapKernelL3Block_built L img T

end SaturnOS
