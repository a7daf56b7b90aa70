import Mathlib.Algebra.Order.Interval.Finset.SuccPred
import Mathlib.Algebra.Order.SuccPred
import Mathlib.Data.Nat.SuccPred
import Mathlib.Order.Interval.Finset.Nat
import SaturnOS.Machinery.Bitmaps
import SaturnOS.Machinery.Runs
import SaturnOS.Memory.Heap

/-!
# Memory/Pmm — the pages of the memory

    0x40000000 ──▸ │ kernel … │ free … │ ramfb │ free … │ ◂── 0x48000000
                     1 1 1 1    0 1 0    1 1 1    0 0        page_bitmap

`kernel/memory/pmm.c`: a bit for each page and a counter of the bits.  `pmm_init` sets the bits of
the kernel's pages and of the frame buffer's, `pmm_alloc_page` sets the first bit that is clear, and
`pmm_free_page` clears one.
-/

open Machinery

namespace SaturnOS

/-! ## The functions -/

def pmmRamBase : Word := 0x40000000
def pmmRamSize : Word := 0x08000000
def pmmRamEnd : Word := pmmRamBase + pmmRamSize
def pmmTotalPages : ℕ := 32768
def ramfbReservedBase : Word := 0x46ffe000
def ramfbReservedEnd : Word := 0x47200000

/-- The statics of the file. -/
structure Pmm where
  pageBitmap : ℕ → Byte
  usedPages : Word

/-- `align_down` of `pmm.c`. -/
def pageAlignDown (value : Word) : Word := value &&& ~~~(pmmPageSize - 1)

/-- `align_up` of `pmm.c`. -/
def pageAlignUp (value : Word) : Word := (value + pmmPageSize - 1) &&& ~~~(pmmPageSize - 1)

def pageIndex (address : Word) : ℕ := ((address - pmmRamBase) / pmmPageSize).toNat

def pageIsUsed (p : Pmm) (index : ℕ) : Bool :=
  (p.pageBitmap (index / 8)).setWidth 32 &&& (1#32 <<< (index % 8)) != 0

def markPageUsed (p : Pmm) (index : ℕ) : Pmm :=
  if !pageIsUsed p index then
    { pageBitmap := Function.update p.pageBitmap (index / 8)
        (p.pageBitmap (index / 8) ||| (1#32 <<< (index % 8)).setWidth 8)
      usedPages := p.usedPages + 1 }
  else p

def markPageFree (p : Pmm) (index : ℕ) : Pmm :=
  if pageIsUsed p index then
    { pageBitmap := Function.update p.pageBitmap (index / 8)
        (p.pageBitmap (index / 8) &&& (~~~(1#32 <<< (index % 8))).setWidth 8)
      usedPages := p.usedPages - 1 }
  else p

/-- A turn of the loop of `reserve_range`. -/
def reserveBody (stop : Word) : Word × Pmm → (Word × Pmm) ⊕ Pmm
  | (current, p) =>
    if current < stop then .inl (current + pmmPageSize, markPageUsed p (pageIndex current))
    else .inr p

/-- More turns than there are pages. -/
def pmmTurns : ℕ := pmmTotalPages + 1

def reserveRange (p : Pmm) (start stop : Word) : Option Pmm :=
  if stop ≤ pmmRamBase ∨ pmmRamEnd ≤ start then some p
  else
    let start := if start < pmmRamBase then pmmRamBase else start
    let stop := if pmmRamEnd < stop then pmmRamEnd else stop
    loop (reserveBody (pageAlignUp stop)) pmmTurns (pageAlignDown start, p)

/-- `kernelEnd` is the address of `_kernel_end`. -/
def pmmInit (p : Pmm) (kernelEnd : Word) : Option Pmm :=
  let p : Pmm :=
    { pageBitmap := fun i => if i < pmmTotalPages / 8 then 0 else p.pageBitmap i
      usedPages := 0 }
  (reserveRange p pmmRamBase kernelEnd).bind fun p =>
    reserveRange p ramfbReservedBase ramfbReservedEnd

/-- The loop of `pmm_alloc_page`. -/
def firstFree (p : Pmm) : Option ℕ := (List.range pmmTotalPages).find? fun i => !pageIsUsed p i

def pmmAllocPage (p : Pmm) : Pmm × Word :=
  (firstFree p).elim (p, 0) fun i =>
    (markPageUsed p i, pmmRamBase + BitVec.ofNat 64 i * pmmPageSize)

def pmmFreePage (p : Pmm) (page : Word) : Pmm :=
  if page < pmmRamBase ∨ pmmRamEnd ≤ page then p
  else if page &&& (pmmPageSize - 1) ≠ 0 then p
  else markPageFree p (pageIndex page)

/-! ## The bitmap is a set of pages -/

/-- The pages whose bits are set. -/
def Pmm.used (p : Pmm) : Finset ℕ := bits p.pageBitmap pmmTotalPages

/-- The counter counts them. -/
def Pmm.Counted (p : Pmm) : Prop := p.usedPages.toNat = p.used.card

section Bitmap

variable {p : Pmm} {i k n : ℕ}

theorem shifted_bit (hk : k < 8) : (1#32 <<< k).setWidth 8 = BitVec.twoPow 8 k := by
  refine BitVec.eq_of_getLsbD_eq fun j hj => ?_
  rw [BitVec.getLsbD_setWidth, BitVec.getLsbD_shiftLeft, BitVec.getLsbD_one, BitVec.getLsbD_twoPow]
  have hj32 : j < 32 := by omega
  simp only [hj, hk, hj32, decide_true, Bool.true_and]
  by_cases h : k = j
  · simp [h]
  · by_cases hlt : j < k
    · simp [hlt, h]
    · have : 0 ≠ j - k := by omega
      simp [h]
      omega

theorem cleared_bit (hk : k < 8) :
    (~~~(1#32 <<< k)).setWidth 8 = ~~~BitVec.twoPow 8 k := by
  rw [← shifted_bit hk]
  refine BitVec.eq_of_getLsbD_eq fun j hj => ?_
  have hj32 : j < 32 := by omega
  simp only [BitVec.getLsbD_setWidth, BitVec.getLsbD_not, hj, hj32, decide_true, Bool.true_and]

/-- **A page is used where its bit is set.** -/
theorem pageIsUsed_eq (p : Pmm) (i : ℕ) : pageIsUsed p i = bitAt p.pageBitmap i := by
  have hlt : i % 8 < 8 := Nat.mod_lt i (by decide)
  have htwo : 1#32 <<< (i % 8) = BitVec.twoPow 32 (i % 8) := rfl
  rw [pageIsUsed, htwo, BitVec.and_twoPow, BitVec.getLsbD_setWidth, bitAt]
  have h32 : i % 8 < 32 := by omega
  simp only [h32, decide_true, Bool.true_and]
  cases (p.pageBitmap (i / 8)).getLsbD (i % 8) with
  | true =>
    rw [if_pos rfl, bne_iff_ne]
    intro hzero
    have hbit := congrArg (fun v => v.getLsbD (i % 8)) hzero
    simp [h32] at hbit
  | false => rfl

theorem pageIsUsed_iff (hi : i < pmmTotalPages) : pageIsUsed p i = true ↔ i ∈ p.used := by
  rw [pageIsUsed_eq, Pmm.used, mem_bits, and_iff_right hi]

/-- **A page is marked used**… -/
theorem markPageUsed_spec (h : p.Counted) (hi : i < pmmTotalPages) :
    (markPageUsed p i).used = insert i p.used ∧ (markPageUsed p i).Counted := by
  have hlt : i % 8 < 8 := Nat.mod_lt i (by decide)
  rw [markPageUsed]
  by_cases hused : pageIsUsed p i = true
  · rw [hused]
    exact ⟨(Finset.insert_eq_of_mem ((pageIsUsed_iff hi).mp hused)).symm, h⟩
  · have hnot : i ∉ p.used := fun hmem => hused ((pageIsUsed_iff hi).mpr hmem)
    rw [Bool.not_eq_true] at hused
    rw [hused, shifted_bit hlt]
    have hset : bits (putBit p.pageBitmap i) pmmTotalPages = insert i p.used :=
      bits_putBit (by decide) hi
    refine ⟨hset, ?_⟩
    show (p.usedPages + 1).toNat = (bits (putBit p.pageBitmap i) pmmTotalPages).card
    have hle : p.used.card ≤ pmmTotalPages := card_bits_le _ _
    rw [hset, Finset.card_insert_of_notMem hnot, ← h]
    rw [← h, pmmTotalPages] at hle
    bv_omega

/-- …and free. -/
theorem markPageFree_spec (h : p.Counted) (hi : i < pmmTotalPages) :
    (markPageFree p i).used = p.used.erase i ∧ (markPageFree p i).Counted := by
  have hlt : i % 8 < 8 := Nat.mod_lt i (by decide)
  rw [markPageFree]
  by_cases hused : pageIsUsed p i = true
  · have hmem := (pageIsUsed_iff hi).mp hused
    rw [if_pos hused, cleared_bit hlt]
    have hset : bits (dropBit p.pageBitmap i) pmmTotalPages = p.used.erase i :=
      bits_dropBit (by decide)
    refine ⟨hset, ?_⟩
    show (p.usedPages - 1).toNat = (bits (dropBit p.pageBitmap i) pmmTotalPages).card
    have hpos : 0 < p.used.card := Finset.card_pos.mpr ⟨i, hmem⟩
    rw [hset, Finset.card_erase_of_mem hmem, ← h]
    rw [← h] at hpos
    bv_omega
  · rw [if_neg hused]
    exact ⟨(Finset.erase_eq_of_notMem fun hmem => hused ((pageIsUsed_iff hi).mpr hmem)).symm, h⟩

end Bitmap

/-! ## Addresses of pages -/

/-- The address of a page. -/
def pageAddr (i : ℕ) : Word := pmmRamBase + BitVec.ofNat 64 i * pmmPageSize

section Addresses

variable {i j : ℕ} {a : Word}

theorem toNat_pageAddr (hi : i ≤ pmmTotalPages) :
    (pageAddr i).toNat = 0x40000000 + 4096 * i := by
  rw [pmmTotalPages] at hi
  rw [pageAddr, pmmRamBase, pmmPageSize, BitVec.toNat_add, BitVec.toNat_mul, BitVec.toNat_ofNat,
    Nat.mod_eq_of_lt (show i < 2 ^ 64 by omega)]
  show (0x40000000 + i * 4096 % 2 ^ 64) % 2 ^ 64 = _
  omega

theorem pageIndex_pageAddr (hi : i < pmmTotalPages) : pageIndex (pageAddr i) = i := by
  have haddr := toNat_pageAddr (Nat.le_of_lt hi)
  rw [pageIndex, BitVec.toNat_udiv, BitVec.toNat_sub_of_le (by
    rw [BitVec.le_def, haddr]
    exact Nat.le_add_right _ _), haddr]
  show (0x40000000 + 4096 * i - 0x40000000) / 4096 = i
  omega

theorem pageAddr_succ (i : ℕ) : pageAddr i + pmmPageSize = pageAddr (i + 1) := by
  rw [pageAddr, pageAddr, BitVec.ofNat_add, BitVec.add_mul, BitVec.add_assoc]
  rfl

theorem toNat_pageOffset (a : Word) : (a &&& (pmmPageSize - 1)).toNat = a.toNat % 4096 := by
  have hfield := toNat_field 0 12 a (by decide)
  rwa [BitVec.ushiftRight_zero, Nat.pow_zero, Nat.div_one] at hfield

/-- An address of the memory that begins a page is a page's. -/
theorem eq_pageAddr (hlow : 0x40000000 ≤ a.toNat) (hhigh : a.toNat < 0x48000000)
    (haligned : a.toNat % 4096 = 0) :
    pageIndex a < pmmTotalPages ∧ pageAddr (pageIndex a) = a := by
  have hplace : (a.toNat - 0x40000000) / 4096 < pmmTotalPages := by
    rw [pmmTotalPages]
    omega
  have ha : pageAddr ((a.toNat - 0x40000000) / 4096) = a := by
    refine BitVec.eq_of_toNat_eq ?_
    rw [toNat_pageAddr (Nat.le_of_lt hplace)]
    omega
  have hindex := pageIndex_pageAddr hplace
  rw [ha] at hindex
  rw [hindex]
  exact ⟨hplace, ha⟩

theorem pageAddr_inj (hi : i < pmmTotalPages) (hj : j < pmmTotalPages)
    (h : pageAddr i = pageAddr j) : i = j := by
  rw [← pageIndex_pageAddr hi, h, pageIndex_pageAddr hj]

theorem pageAddr_ne_zero (hi : i < pmmTotalPages) : pageAddr i ≠ 0 := by
  intro h
  have haddr := toNat_pageAddr (Nat.le_of_lt hi)
  rw [h, show (0 : Word).toNat = 0 from rfl] at haddr
  omega

end Addresses

/-! ## Reserving -/

section Reserving

variable {p : Pmm} {i j : ℕ}

/-- **The loop marks the pages from the one it is at up to the end.** -/
theorem reserve_loop {n : ℕ} (h : p.Counted) (hij : i ≤ j) (hj : j ≤ pmmTotalPages)
    (hn : j - i < n) :
    ∃ p', loop (reserveBody (pageAddr j)) n (pageAddr i, p) = some p' ∧ p'.Counted ∧
      p'.used = p.used ∪ Finset.Ico i j := by
  induction n generalizing i p with
  | zero => exact absurd hn (Nat.not_lt_zero _)
  | succ n ih =>
    have hlt : pageAddr i < pageAddr j ↔ i < j := by
      rw [BitVec.lt_def, toNat_pageAddr (hij.trans hj), toNat_pageAddr hj]
      omega
    by_cases hend : i < j
    · have hi : i < pmmTotalPages := Nat.lt_of_lt_of_le hend hj
      have hbody : reserveBody (pageAddr j) (pageAddr i, p)
          = .inl (pageAddr (i + 1), markPageUsed p i) := by
        rw [reserveBody, if_pos (hlt.mpr hend), pageAddr_succ, pageIndex_pageAddr hi]
      obtain ⟨hused, hcounted⟩ := markPageUsed_spec h hi
      obtain ⟨p', hloop, hp', hall⟩ := ih hcounted (Nat.succ_le_of_lt hend) (by omega)
      refine ⟨p', (loop_next hbody n).trans hloop, hp', ?_⟩
      rw [hall, hused, ← Finset.insert_Ico_add_one_left_eq_Ico hend, Finset.insert_union,
        Finset.union_insert]
      rfl
    · obtain rfl : i = j := by omega
      have hbody : reserveBody (pageAddr i) (pageAddr i, p) = .inr p :=
        if_neg fun hn => hend (hlt.mp hn)
      exact ⟨p, loop_end hbody n, h, by rw [Finset.Ico_self, Finset.union_empty]⟩

/-- The start of a range, cut to the memory… -/
theorem cutStart_toNat (start : Word) :
    (if start < pmmRamBase then pmmRamBase else start).toNat = max start.toNat 0x40000000 := by
  have hbase : pmmRamBase.toNat = 0x40000000 := rfl
  split
  · rename_i hlt
    rw [BitVec.lt_def, hbase] at hlt
    rw [hbase, Nat.max_eq_right (Nat.le_of_lt hlt)]
  · rename_i hlt
    rw [BitVec.lt_def, hbase] at hlt
    rw [Nat.max_eq_left (Nat.le_of_not_lt hlt)]

/-- …and its end. -/
theorem cutStop_toNat (stop : Word) :
    (if pmmRamEnd < stop then pmmRamEnd else stop).toNat = min stop.toNat 0x48000000 := by
  have hend : pmmRamEnd.toNat = 0x48000000 := rfl
  split
  · rename_i hlt
    rw [BitVec.lt_def, hend] at hlt
    rw [hend, Nat.min_eq_right (Nat.le_of_lt hlt)]
  · rename_i hlt
    rw [BitVec.lt_def, hend] at hlt
    rw [Nat.min_eq_left (Nat.le_of_not_lt hlt)]

/-- Inside the memory the rounding is to the page an address is in… -/
theorem pageAlignDown_eq {a : Word} (hlow : 0x40000000 ≤ a.toNat) (hhigh : a.toNat ≤ 0x48000000) :
    pageAlignDown a = pageAddr ((a.toNat - 0x40000000) / 4096) := by
  refine BitVec.eq_of_toNat_eq ?_
  rw [toNat_pageAddr (by rw [pmmTotalPages]; omega)]
  refine (toNat_and_not 12 a).trans ?_
  omega

/-- …or to the next, if it is not the start of one. -/
theorem pageAlignUp_eq {a : Word} (hlow : 0x40000000 ≤ a.toNat) (hhigh : a.toNat ≤ 0x48000000) :
    pageAlignUp a = pageAddr ((a.toNat + 4095 - 0x40000000) / 4096) := by
  refine BitVec.eq_of_toNat_eq ?_
  rw [toNat_pageAddr (by rw [pmmTotalPages]; omega)]
  refine (toNat_and_not 12 (a + pmmPageSize - 1)).trans ?_
  have hsum : (a + pmmPageSize - 1).toNat = a.toNat + 4095 := by
    rw [pmmPageSize]
    bv_omega
  omega

/-- The page shares an address with the range. -/
def PageMeets (i : ℕ) (start stop : Word) : Prop :=
  (pageAddr i).toNat < stop.toNat ∧ start.toNat < (pageAddr i).toNat + 4096

/-- **A range is reserved**: every page of the memory that it meets is used, and none that was used
is not. -/
theorem reserveRange_spec (h : p.Counted) (start stop : Word)
    (hle : pmmRamBase < stop → start ≤ stop) : ∃ p',
    reserveRange p start stop = some p' ∧ p'.Counted ∧ p.used ⊆ p'.used ∧
      ∀ i < pmmTotalPages, PageMeets i start stop → i ∈ p'.used := by
  have hbase : pmmRamBase.toNat = 0x40000000 := rfl
  have hend : pmmRamEnd.toNat = 0x48000000 := rfl
  rw [reserveRange]
  by_cases hout : stop ≤ pmmRamBase ∨ pmmRamEnd ≤ start
  · refine ⟨p, if_pos hout, h, Finset.Subset.refl _, fun i hi ⟨hlow, hhigh⟩ => ?_⟩
    rw [toNat_pageAddr (Nat.le_of_lt hi)] at hlow hhigh
    rw [BitVec.le_def, BitVec.le_def] at hout
    rw [pmmTotalPages] at hi
    omega
  rw [if_neg hout]
  obtain ⟨hstop, hstart⟩ := not_or.mp hout
  replace hle := BitVec.le_def.mp (hle (BitVec.not_le.mp hstop))
  rw [BitVec.le_def, Nat.not_le] at hstop hstart
  rw [hbase] at hstop
  rw [hend] at hstart
  have hfirst := cutStart_toNat start
  have hlast := cutStop_toNat stop
  dsimp only
  generalize (if start < pmmRamBase then pmmRamBase else start) = first at hfirst ⊢
  generalize (if pmmRamEnd < stop then pmmRamEnd else stop) = last at hlast ⊢
  rw [pageAlignDown_eq (by omega) (by omega), pageAlignUp_eq (by omega) (by omega)]
  obtain ⟨p', hloop, hp', hall⟩ := @reserve_loop p ((first.toNat - 0x40000000) / 4096)
    ((last.toNat + 4095 - 0x40000000) / 4096) pmmTurns h (by omega) (by rw [pmmTotalPages]; omega)
    (by rw [pmmTurns, pmmTotalPages]; omega)
  refine ⟨p', hloop, hp', ?_, fun i hi ⟨hlow, hhigh⟩ => ?_⟩
  · rw [hall]
    exact Finset.subset_union_left
  · rw [toNat_pageAddr (Nat.le_of_lt hi)] at hlow hhigh
    rw [hall, Finset.mem_union, Finset.mem_Ico]
    rw [pmmTotalPages] at hi
    refine .inr ⟨?_, ?_⟩ <;> omega

end Reserving

/-! ## Allocating and freeing -/

section Calls

variable {p : Pmm} {a : Word}

theorem firstFree_none (h : firstFree p = none) {i : ℕ} (hi : i < pmmTotalPages) : i ∈ p.used := by
  have hnone := List.find?_eq_none.mp h i (List.mem_range.mpr hi)
  rw [Bool.not_eq_true', Bool.not_eq_false] at hnone
  exact (pageIsUsed_iff hi).mp hnone

theorem firstFree_some {i : ℕ} (h : firstFree p = some i) :
    i < pmmTotalPages ∧ i ∉ p.used ∧ ∀ j < i, j ∈ p.used := by
  obtain ⟨hnot, hi, hfirst⟩ := List.find?_range_eq_some.mp h
  rw [List.mem_range] at hi
  refine ⟨hi, fun hmem => ?_, fun j hj => ?_⟩
  · rw [(pageIsUsed_iff hi).mpr hmem] at hnot
    cases hnot
  · have hused := hfirst j hj
    rw [Bool.not_not] at hused
    exact (pageIsUsed_iff (hj.trans hi)).mp hused

theorem pmmAllocPage_none (h : firstFree p = none) : pmmAllocPage p = (p, 0) := by
  rw [pmmAllocPage, h, Option.elim]

theorem pmmAllocPage_some {i : ℕ} (h : firstFree p = some i) :
    pmmAllocPage p = (markPageUsed p i, pageAddr i) := by
  rw [pmmAllocPage, h, Option.elim, pageAddr]

/-- **`pmm_alloc_page`** returns 0, or the first page that is not used. -/
theorem pmmAllocPage_spec (h : p.Counted) :
    (pmmAllocPage p = (p, 0) ∧ ∀ i < pmmTotalPages, i ∈ p.used) ∨
      ∃ i < pmmTotalPages, i ∉ p.used ∧ (∀ j < i, j ∈ p.used) ∧
        pmmAllocPage p = (markPageUsed p i, pageAddr i) ∧
        (markPageUsed p i).used = insert i p.used ∧ (markPageUsed p i).Counted := by
  rcases hfind : firstFree p with - | i
  · exact .inl ⟨pmmAllocPage_none hfind, fun i hi => firstFree_none hfind hi⟩
  · obtain ⟨hi, hnot, hfirst⟩ := firstFree_some hfind
    exact .inr ⟨i, hi, hnot, hfirst, pmmAllocPage_some hfind, markPageUsed_spec h hi⟩

/-- An address that is a page of the memory, and used. -/
def IsUsedPage (p : Pmm) (a : Word) : Prop := ∃ i ∈ p.used, a = pageAddr i

/-- **`pmm_free_page`** does nothing to any other address… -/
theorem pmmFreePage_other (h : ¬ IsUsedPage p a) : pmmFreePage p a = p := by
  have hbase : pmmRamBase.toNat = 0x40000000 := rfl
  have hend : pmmRamEnd.toNat = 0x48000000 := rfl
  rw [pmmFreePage]
  by_cases hout : a < pmmRamBase ∨ pmmRamEnd ≤ a
  · exact if_pos hout
  rw [if_neg hout]
  by_cases hoffset : a &&& (pmmPageSize - 1) = 0
  · obtain ⟨hlow, hhigh⟩ := not_or.mp hout
    rw [BitVec.lt_def, hbase, Nat.not_lt] at hlow
    rw [BitVec.le_def, hend, Nat.not_le] at hhigh
    have haligned : a.toNat % 4096 = 0 := by
      rw [← toNat_pageOffset, hoffset]
      rfl
    obtain ⟨hi, ha⟩ := eq_pageAddr hlow hhigh haligned
    rw [if_neg (fun hne => hne hoffset), markPageFree, if_neg]
    exact fun hused => h ⟨_, (pageIsUsed_iff hi).mp hused, ha.symm⟩
  · exact if_pos hoffset

/-- …and frees a used page. -/
theorem pmmFreePage_page {i : ℕ} (hi : i < pmmTotalPages) :
    pmmFreePage p (pageAddr i) = markPageFree p i := by
  have haddr := toNat_pageAddr (Nat.le_of_lt hi)
  have hbase : pmmRamBase.toNat = 0x40000000 := rfl
  have hend : pmmRamEnd.toNat = 0x48000000 := rfl
  have hin : ¬ (pageAddr i < pmmRamBase ∨ pmmRamEnd ≤ pageAddr i) := by
    rw [BitVec.lt_def, BitVec.le_def, haddr, hbase, hend]
    rw [pmmTotalPages] at hi
    omega
  have hoffset : pageAddr i &&& (pmmPageSize - 1) = 0 := by
    refine BitVec.eq_of_toNat_eq ?_
    rw [toNat_pageOffset, haddr]
    show _ = 0
    omega
  rw [pmmFreePage, if_neg hin, if_neg (fun hne => hne hoffset), pageIndex_pageAddr hi]

theorem Pmm.Counted.freePage (h : p.Counted) (a : Word) : (pmmFreePage p a).Counted := by
  by_cases hpage : IsUsedPage p a
  · obtain ⟨i, hi, rfl⟩ := hpage
    have hlt := (mem_bits.mp hi).1
    rw [pmmFreePage_page hlt]
    exact (markPageFree_spec h hlt).2
  · rwa [pmmFreePage_other hpage]

/-- Only the page that is freed becomes free. -/
theorem mem_used_freePage (h : p.Counted) {i : ℕ} (hi : i ∈ p.used) (hne : a ≠ pageAddr i) :
    i ∈ (pmmFreePage p a).used := by
  by_cases hpage : IsUsedPage p a
  · obtain ⟨j, hj, rfl⟩ := hpage
    have hlt := (mem_bits.mp hj).1
    rw [pmmFreePage_page hlt, (markPageFree_spec h hlt).1, Finset.mem_erase]
    refine ⟨?_, hi⟩
    rintro rfl
    exact hne rfl
  · rwa [pmmFreePage_other hpage]

end Calls

/-! ## Runs -/

/-- The allocator, every page it has returned, and those not given back since. -/
structure PmmRun where
  pmm : Pmm
  returned : List Word
  handedOut : List Word

inductive PmmOp
  | alloc
  | free (page : Word)

def pmmStep (s : PmmRun) : PmmOp → Option PmmRun
  | .alloc =>
    let (p, page) := pmmAllocPage s.pmm
    if page = 0 then some { s with pmm := p }
    else some ⟨p, page :: s.returned, page :: s.handedOut⟩
  | .free page =>
    some { s with pmm := pmmFreePage s.pmm page, handedOut := s.handedOut.erase page }

/-- **The allocator's promise**, whatever is freed: the counter counts the bits, an allocation gets
the lowest free page, or 0 where there is none, and an address that is no used page of the memory is
not freed. -/
structure PmmOk (p : Pmm) : Prop where
  counted : p.usedPages.toNat = p.used.card
  full : (pmmAllocPage p).2 = 0 ↔ ∀ i < pmmTotalPages, pageIsUsed p i = true
  lowest : (pmmAllocPage p).2 ≠ 0 → ∃ i < pmmTotalPages, pageIsUsed p i = false ∧
    (∀ j < i, pageIsUsed p j = true) ∧ (pmmAllocPage p).2.toNat = 0x40000000 + 4096 * i
  bogus : ∀ a : Word, a.toNat % 4096 ≠ 0 ∨ a.toNat < 0x40000000 ∨ 0x48000000 ≤ a.toNat ∨
    pageIsUsed p (pageIndex a) = false → pmmFreePage p a = p

theorem Pmm.Counted.ok {p : Pmm} (h : p.Counted) : PmmOk p where
  counted := h
  full := by
    rcases pmmAllocPage_spec h with ⟨heq, hall⟩ | ⟨i, hi, hnot, -, heq, -⟩
    · rw [heq]
      exact iff_of_true rfl fun i hi => (pageIsUsed_iff hi).mpr (hall i hi)
    · rw [heq]
      exact iff_of_false (pageAddr_ne_zero hi) fun hall => hnot ((pageIsUsed_iff hi).mp (hall i hi))
  lowest hne := by
    rcases pmmAllocPage_spec h with ⟨heq, -⟩ | ⟨i, hi, hnot, hfirst, heq, -⟩
    · rw [heq] at hne
      exact absurd rfl hne
    · refine ⟨i, hi, ?_, fun j hj => (pageIsUsed_iff (hj.trans hi)).mpr (hfirst j hj), ?_⟩
      · rw [Bool.eq_false_iff]
        exact fun hused => hnot ((pageIsUsed_iff hi).mp hused)
      · rw [heq]
        exact toNat_pageAddr (Nat.le_of_lt hi)
  bogus a ha := by
    refine pmmFreePage_other fun ⟨i, hused, hpage⟩ => ?_
    have hi : i < pmmTotalPages := (mem_bits.mp hused).1
    have haddr := toNat_pageAddr (Nat.le_of_lt hi)
    have hbit := (pageIsUsed_iff hi).mpr hused
    rw [pmmTotalPages] at hi
    rw [hpage, haddr, pageIndex_pageAddr (by rw [pmmTotalPages]; omega), hbit] at ha
    rcases ha with ha | ha | ha | ha
    · omega
    · omega
    · omega
    · cases ha

/-- What was returned has been returned before. -/
def FreesReturned (s : PmmRun) : PmmOp → Prop
  | .alloc => True
  | .free page => page ∈ s.returned

/-- The ranges that `pmm_init` reserves. -/
def reservedRanges (kernelEnd : Word) : List (Word × Word) :=
  [(pmmRamBase, kernelEnd), (ramfbReservedBase, ramfbReservedEnd)]

/-- **What is handed out**: no page that was ever returned meets a reserved range, and those that
are out are different pages. -/
structure HandsOut (kernelEnd : Word) (s : PmmRun) : Prop where
  unreserved : ∀ page ∈ s.returned, ∀ r ∈ reservedRanges kernelEnd,
    page.toNat + 4096 ≤ r.1.toNat ∨ r.2.toNat ≤ page.toNat
  distinct : s.handedOut.Nodup

/-- …because the pages that were not used at the start are handed out, and stay used while they are
out. -/
structure HandsInv (reserved : Finset ℕ) (s : PmmRun) : Prop where
  counted : s.pmm.Counted
  kept : reserved ⊆ s.pmm.used
  returned : ∀ page ∈ s.returned, ∃ i < pmmTotalPages, i ∉ reserved ∧ page = pageAddr i
  out : ∀ page ∈ s.handedOut, IsUsedPage s.pmm page
  distinct : s.handedOut.Nodup

/-- **An allocation** gets nothing, or a page that was not used. -/
theorem pmmStep_alloc {s s' : PmmRun} (h : s.pmm.Counted) (hstep : pmmStep s .alloc = some s') :
    s' = s ∨ ∃ i < pmmTotalPages, i ∉ s.pmm.used ∧
      s' = ⟨markPageUsed s.pmm i, pageAddr i :: s.returned, pageAddr i :: s.handedOut⟩ := by
  simp only [pmmStep] at hstep
  rcases pmmAllocPage_spec h with ⟨heq, -⟩ | ⟨i, hi, hnot, -, heq, -⟩
  · rw [heq, if_pos rfl] at hstep
    exact .inl (Option.some.inj hstep).symm
  · rw [heq, if_neg (pageAddr_ne_zero hi)] at hstep
    exact .inr ⟨i, hi, hnot, (Option.some.inj hstep).symm⟩

theorem pmmStep_counted {s s' : PmmRun} (h : s.pmm.Counted) {op : PmmOp}
    (hstep : pmmStep s op = some s') : s'.pmm.Counted := by
  cases op with
  | alloc =>
    obtain rfl | ⟨i, hi, -, rfl⟩ := pmmStep_alloc h hstep
    · exact h
    · exact (markPageUsed_spec h hi).2
  | free page =>
    obtain rfl := Option.some.inj hstep
    exact h.freePage page

theorem pmmStep_hands {reserved : Finset ℕ} {s s' : PmmRun} (h : HandsInv reserved s) {op : PmmOp}
    (hstep : pmmStep s op = some s') (hop : FreesReturned s op) : HandsInv reserved s' := by
  cases op with
  | alloc =>
    obtain rfl | ⟨i, hi, hnot, rfl⟩ := pmmStep_alloc h.counted hstep
    · exact h
    obtain ⟨hused, hcounted⟩ := markPageUsed_spec h.counted hi
    have hgrow : s.pmm.used ⊆ (markPageUsed s.pmm i).used := by
      rw [hused]
      exact Finset.subset_insert _ _
    refine ⟨hcounted, h.kept.trans hgrow, List.forall_mem_cons.mpr ⟨?_, h.returned⟩,
      List.forall_mem_cons.mpr ⟨?_, ?_⟩, List.nodup_cons.mpr ⟨?_, h.distinct⟩⟩
    · exact ⟨i, hi, fun hmem => hnot (h.kept hmem), rfl⟩
    · exact ⟨i, hused ▸ Finset.mem_insert_self _ _, rfl⟩
    · intro page hpage
      obtain ⟨j, hj, rfl⟩ := h.out page hpage
      exact ⟨j, hgrow hj, rfl⟩
    · -- a page that is out is used, and the page found is not
      intro hout
      obtain ⟨j, hj, heq⟩ := h.out _ hout
      rw [pageAddr_inj hi (mem_bits.mp hj).1 heq] at hnot
      exact hnot hj
  | free page =>
    obtain rfl := Option.some.inj hstep
    refine ⟨h.counted.freePage page, fun i hi => ?_, h.returned, fun a ha => ?_,
      h.distinct.erase page⟩
    · -- a page that was returned is not a reserved one
      obtain ⟨j, hj, hnot, rfl⟩ := h.returned page hop
      refine mem_used_freePage h.counted (h.kept hi) fun heq => hnot ?_
      rwa [pageAddr_inj hj (mem_bits.mp (h.kept hi)).1 heq]
    · obtain ⟨hne, hout⟩ := h.distinct.mem_erase_iff.mp ha
      obtain ⟨i, hi, rfl⟩ := h.out a hout
      exact ⟨i, mem_used_freePage h.counted hi (Ne.symm hne), rfl⟩

/-- **The state that `pmm_init` leaves.** -/
theorem pmmInit_spec (p : Pmm) (kernelEnd : Word) :
    ∃ p', pmmInit p kernelEnd = some p' ∧ p'.Counted ∧
    ∀ r ∈ reservedRanges kernelEnd, ∀ i < pmmTotalPages, PageMeets i r.1 r.2 → i ∈ p'.used := by
  have hclear : Pmm.Counted ⟨fun i => if i < pmmTotalPages / 8 then 0 else p.pageBitmap i, 0⟩ := by
    refine (Finset.card_eq_zero.mpr (Finset.eq_empty_of_forall_notMem fun i hi => ?_)).symm
    obtain ⟨hlt, hbit⟩ := mem_bits.mp hi
    have hplace : i / 8 < pmmTotalPages / 8 := by
      rw [pmmTotalPages] at hlt ⊢
      omega
    simp only [bitAt, if_pos hplace, BitVec.ofNat_eq_ofNat, BitVec.getLsbD_zero] at hbit
    cases hbit
  obtain ⟨q, hq, hqCounted, -, hkernel⟩ :=
    reserveRange_spec hclear pmmRamBase kernelEnd BitVec.le_of_lt
  obtain ⟨q', hq', hcounted, hgrow, hramfb⟩ :=
    reserveRange_spec hqCounted ramfbReservedBase ramfbReservedEnd fun _ => by decide
  refine ⟨q', ?_, hcounted, ?_⟩
  · exact Option.bind_eq_some_iff.mpr ⟨q, hq, hq'⟩
  · intro r hr i hi hmeets
    rw [reservedRanges, List.mem_pair] at hr
    obtain rfl | rfl := hr
    · exact hgrow (hkernel i hi hmeets)
    · exact hramfb i hi hmeets

/-- **The page allocator keeps its promises**, from `pmm_init` on, whatever is freed; and if only
what it returned is given back, it hands out no reserved page, and none twice. -/
theorem pmm_promises (p : Pmm) (kernelEnd : Word) : ∃ p', pmmInit p kernelEnd = some p' ∧
    ∀ ops, Always pmmStep (fun s => PmmOk s.pmm) ⟨p', [], []⟩ ops ∧
      (Along pmmStep (fun s op _ => FreesReturned s op) ⟨p', [], []⟩ ops →
        Always pmmStep (HandsOut kernelEnd) ⟨p', [], []⟩ ops) := by
  obtain ⟨p', hinit, hcounted, hreserved⟩ := pmmInit_spec p kernelEnd
  refine ⟨p', hinit, fun ops => ⟨?_, ?_⟩⟩
  · exact Always.of_inv (fun s op s' h hstep => pmmStep_counted h hstep) (fun s h => h.ok) hcounted
      ops
  · refine Always.of_along (I := HandsInv p'.used) (fun s op s' h => pmmStep_hands h)
      (fun s h => ?_)
      ⟨hcounted, Finset.Subset.refl _, List.forall_mem_nil _, List.forall_mem_nil _, List.nodup_nil⟩
    refine ⟨fun page hpage r hr => ?_, h.distinct⟩
    obtain ⟨i, hi, hnot, rfl⟩ := h.returned page hpage
    by_contra hmeets
    rw [not_or, Nat.not_le, Nat.not_le] at hmeets
    exact hnot (hreserved r hr i hi ⟨hmeets.2, hmeets.1⟩)

end SaturnOS
