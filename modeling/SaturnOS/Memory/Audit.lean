import SaturnOS.Machinery.Bytes
import SaturnOS.Machinery.Scans
import SaturnOS.Memory.AddressSpace
import SaturnOS.Memory.Lookup
import SaturnOS.Memory.Protection

/-!
# Memory/Audit — what `vm` reports of a range

    start                                        stop
      │ page │ page │ guard │        block        │
      ▸──────▸──────▸───────▸─────────────────────▸        xn, exec, mixed, unmapped

The audit goes through a range by what it meets, from a block to the one after it, and steps over
guards only where it lands.  All pages of a block have its descriptor, and a guard says nothing: the
audit reports what a look at every page would (`audit_scans_pages`), whatever the tables hold.
-/

open Machinery

namespace SaturnOS

/-! ## The functions -/

/-- `translation_for_address` over any memory: `read p i` is the `i`-th word at `p`. -/
def translationIn (read : Word → Word → Word) (st : VmState) (address : Word) :
    Option Translation :=
  let l1Descriptor := st.tables .vmL1 (tableIndex (arm64MmuL1Index address))
  if !arm64MmuDescIsTable l1Descriptor then none
  else
    match findL2Table (arm64MmuL1Index address) st with
    | none => none
    | some slot =>
      let l2Descriptor := st.tables (.vmL2 slot) (tableIndex (arm64MmuL2Index address))
      if arm64MmuDescIsL2Block l2Descriptor then
        some ⟨arm64MmuL2BlockAddress l2Descriptor + (address &&& (arm64L2BlockSize - 1)),
          l2Descriptor, 2⟩
      else if !arm64MmuDescIsTable l2Descriptor then none
      else
        let l3Descriptor := read (arm64MmuDescAddress l2Descriptor) (arm64MmuL3Index address)
        if !arm64MmuDescIsL3Page l3Descriptor then none
        else
          some ⟨arm64MmuL3PageAddress l3Descriptor + (address &&& (arm64PageSize - 1)),
            l3Descriptor, 3⟩

/-- With the static tables for memory it is the lookup that the validation uses. -/
theorem translationIn_read (L : Layout) (st : VmState) (address : Word) :
    translationIn (L.read st.tables) st address = translationForAddress L st address := rfl

/-- The locals of the loop: where it is, and whether it has seen a descriptor that has the
permission, and one that has not. -/
structure AuditState where
  address : Word
  sawYes : Bool
  sawNo : Bool

/-- What an audit asks of a descriptor, and its words for the answers. -/
structure Permission where
  test : Word → Bool
  yes : List Byte
  no : List Byte

def executePermission : Permission := ⟨arm64MmuDescIsExecuteNever, ascii "xn", ascii "exec"⟩

def writePermission : Permission := ⟨arm64MmuDescIsReadOnly, ascii "ro", ascii "rw"⟩

/-- What is returned after the loop. -/
def Permission.verdict (p : Permission) (sawYes sawNo : Bool) : List Byte :=
  if sawYes then p.yes else if !sawNo then ascii "unmapped" else p.no

structure VmPermissionGoal where
  start : Word
  stop : Word
  wantXn : Bool
  wantRo : Bool

/-- What `vm_execute_permission_status` makes of the word, by its first letters… -/
def executeEnforcement (wantXn : Bool) (actual : List Byte) : List Byte :=
  if actual[0]? = some 0x65 ∧ actual[1]? = some 0x6d then ascii "empty"
  else if actual[0]? = some 0x75 then ascii "unmapped"
  else if actual[0]? = some 0x6d then ascii "mixed"
  else if wantXn then
    if actual[0]? = some 0x78 then ascii "enforced" else ascii "pending-l3"
  else if actual[0]? = some 0x65 then ascii "enforced"
  else ascii "too-strict"

/-- …and `vm_write_permission_status`. -/
def writeEnforcement (wantRo : Bool) (actual : List Byte) : List Byte :=
  if actual[0]? = some 0x65 then ascii "empty"
  else if actual[0]? = some 0x75 then ascii "unmapped"
  else if actual[0]? = some 0x6d then ascii "mixed"
  else if wantRo then
    if actual[0]? = some 0x72 ∧ actual[1]? = some 0x6f then ascii "enforced" else ascii "writable"
  else if actual[0]? = some 0x72 ∧ actual[1]? = some 0x77 then ascii "enforced"
  else ascii "too-strict"

section Audit

variable (read : Word → Word → Word) (img : Image) (st : VmState)

/-- `next_descriptor_in_range`: the address to go on with, and the descriptor. -/
def nextDescriptorInRange (address stop : Word) : Option (Word × Word) :=
  (translationIn read st address).map fun t =>
    let step := if t.level = 2 then arm64L2BlockSize else arm64PageSize
    let next := alignDown address step + step
    (if stop < next then stop else next, t.descriptor)

/-- A turn of the loop. -/
def auditTurn (p : Permission) (stop : Word) (s : AuditState) : AuditState ⊕ List Byte :=
  if s.address < stop then
    if vmAddressIsGuardPage img s.address then .inl { s with address := s.address + arm64PageSize }
    else
      match nextDescriptorInRange read st s.address stop with
      | none => .inr (ascii "unmapped")
      | some (address, descriptor) =>
        let sawYes := s.sawYes || p.test descriptor
        let sawNo := s.sawNo || !p.test descriptor
        if sawNo && sawYes then .inr (ascii "mixed") else .inl ⟨address, sawYes, sawNo⟩
  else .inr (p.verdict s.sawYes s.sawNo)

/-- The audit of a range, for at most so many turns. -/
def vmActualPermission (p : Permission) (turns : ℕ) (start stop : Word) : Option (List Byte) :=
  if stop ≤ start then some (ascii "empty")
  else loop (auditTurn read img st p stop) turns ⟨alignDown start arm64PageSize, false, false⟩

def vmActualExecutePermissionForRange (turns : ℕ) (start stop : Word) : Option (List Byte) :=
  vmActualPermission read img st executePermission turns start stop

def vmActualWritePermissionForRange (turns : ℕ) (start stop : Word) : Option (List Byte) :=
  vmActualPermission read img st writePermission turns start stop

def vmExecutePermissionStatus (turns : ℕ) (goal : VmPermissionGoal) : Option (List Byte) :=
  (vmActualExecutePermissionForRange read img st turns goal.start goal.stop).map
    (executeEnforcement goal.wantXn)

def vmWritePermissionStatus (turns : ℕ) (goal : VmPermissionGoal) : Option (List Byte) :=
  (vmActualWritePermissionForRange read img st turns goal.start goal.stop).map
    (writeEnforcement goal.wantRo)

/-! ## The plain scan -/

/-- The 4 KiB pages of a range, in order. -/
def pagesOf (start stop : Word) : List Word :=
  (List.range' (start.toNat / 4096) ((stop.toNat + 4095) / 4096 - start.toNat / 4096)).map
    pageAddress

/-- A look at a page: guards say nothing, and the first page that is unmapped, or unlike those
before it, decides. -/
def lookAtPage (p : Permission) (saw : Bool × Bool) (page : Word) : (Bool × Bool) ⊕ List Byte :=
  if vmAddressIsGuardPage img page then .inl saw
  else
    match translationIn read st page with
    | none => .inr (ascii "unmapped")
    | some t =>
      let sawYes := saw.1 || p.test t.descriptor
      let sawNo := saw.2 || !p.test t.descriptor
      if sawNo && sawYes then .inr (ascii "mixed") else .inl (sawYes, sawNo)

/-- **The audit of a range, page by page.** -/
def scanPages (p : Permission) (start stop : Word) : List Byte :=
  lookThrough (lookAtPage read img st p) (fun saw => p.verdict saw.1 saw.2) (pagesOf start stop)
    (false, false)

end Audit

/-! ## Pages and blocks -/

section Lookup

variable {read : Word → Word → Word} {st : VmState} {a b : Word} {t : Translation}

/-- Addresses of one block have one entry in each of the upper tables… -/
theorem upperIndices_congr (h : b.toNat / 2 ^ 21 = a.toNat / 2 ^ 21) :
    arm64MmuL1Index b = arm64MmuL1Index a ∧
      tableIndex (arm64MmuL2Index b) = tableIndex (arm64MmuL2Index a) := by
  refine ⟨?_, Fin.ext ?_⟩
  · rw [l1Index_eq, l1Index_eq]
    congr 2
    omega
  · rw [tableIndex_l2, tableIndex_l2, h]

/-- …and those of one page in the last. -/
theorem l3Index_congr (h : b.toNat / 2 ^ 12 = a.toNat / 2 ^ 12) :
    arm64MmuL3Index b = arm64MmuL3Index a :=
  BitVec.eq_of_toNat_eq ((toNat_field 12 9 b (by decide)).trans
    ((congrArg (· % 2 ^ 9) h).trans (toNat_field 12 9 a (by decide)).symm))

/-- **All addresses of a block have its descriptor, and all of a page that of the page.** -/
theorem translationIn_congr (ha : translationIn read st a = some t)
    (h : b.toNat / 2 ^ 21 = a.toNat / 2 ^ 21)
    (hlast : t.level = 2 ∨ b.toNat / 2 ^ 12 = a.toNat / 2 ^ 12) :
    ∃ t', translationIn read st b = some t' ∧ t'.descriptor = t.descriptor := by
  obtain ⟨h1, h2⟩ := upperIndices_congr h
  rw [translationIn] at ha ⊢
  rw [h1, h2]
  dsimp only at ha ⊢
  by_cases htable : !arm64MmuDescIsTable (st.tables .vmL1 (tableIndex (arm64MmuL1Index a)))
  · rw [if_pos htable] at ha
    cases ha
  rw [if_neg htable] at ha ⊢
  cases hfind : findL2Table (arm64MmuL1Index a) st with
  | none =>
    rw [hfind] at ha
    cases ha
  | some slot =>
    rw [hfind] at ha
    dsimp only at ha ⊢
    split at ha
    · rename_i hblock
      obtain rfl := Option.some.inj ha
      exact ⟨_, if_pos hblock, rfl⟩
    rename_i hblock
    rw [if_neg hblock]
    split at ha
    · cases ha
    rename_i htable'
    rw [if_neg htable']
    split at ha
    · cases ha
    rename_i hpage
    obtain rfl := Option.some.inj ha
    rw [l3Index_congr (hlast.resolve_left fun hlevel => nomatch hlevel)]
    exact ⟨_, if_neg hpage, rfl⟩

end Lookup

/-! ## Turns -/

/-- The page that an address begins, or the one after it. -/
def pageAbove (a : Word) : ℕ := (a.toNat + 4095) / 4096

/-- The pages from the `i`-th on. -/
def pagesFrom (i : ℕ) (stop : Word) : List Word :=
  (List.range' i (pageAbove stop - i)).map pageAddress

theorem pagesFrom_append {i j : ℕ} {stop : Word} (hij : i ≤ j) (hj : j ≤ pageAbove stop) :
    pagesFrom i stop = (List.range' i (j - i)).map pageAddress ++ pagesFrom j stop := by
  have happend := @List.range'_append_1 i (j - i) (pageAbove stop - j)
  rw [Nat.add_sub_cancel' hij, show j - i + (pageAbove stop - j) = pageAbove stop - i by omega]
    at happend
  rw [pagesFrom, pagesFrom, ← List.map_append, happend]

theorem pagesFrom_cons {i : ℕ} {stop : Word} (h : i < pageAbove stop) :
    pagesFrom i stop = pageAddress i :: pagesFrom (i + 1) stop := by
  rw [pagesFrom_append (Nat.le_succ i) h, Nat.succ_sub (Nat.le_refl i), Nat.sub_self]
  rfl

theorem pagesFrom_of_le {i : ℕ} {stop : Word} (h : pageAbove stop ≤ i) : pagesFrom i stop = [] := by
  rw [pagesFrom, Nat.sub_eq_zero_of_le h]
  rfl

/-- The end of a page or a block. -/
theorem toNat_alignDown_add {a : Word} {k : ℕ} (hk : 2 ^ k < 2 ^ 39) (ha : a.toNat < 2 ^ 39) :
    (alignDown a (BitVec.ofNat 64 (2 ^ k)) + BitVec.ofNat 64 (2 ^ k)).toNat
      = (a.toNat / 2 ^ k + 1) * 2 ^ k := by
  have hpos : 0 < 2 ^ k := Nat.two_pow_pos k
  have hsub : BitVec.ofNat 64 (2 ^ k) - 1 = BitVec.ofNat 64 (2 ^ k - 1) :=
    BitVec.ofNat_sub_ofNat_of_le _ _ (by decide) hpos
  have hdown := Nat.div_mul_le_self a.toNat (2 ^ k)
  rw [alignDown, hsub, BitVec.toNat_add, toNat_and_not, BitVec.toNat_ofNat, Nat.add_mod_mod,
    Nat.mod_eq_of_lt (by omega), Nat.succ_mul]

theorem toNat_add_pageSize {a : Word} (h : a.toNat + 4096 < 2 ^ 64) :
    (a + arm64PageSize).toNat = a.toNat + 4096 := by
  have hsize : arm64PageSize.toNat = 4096 := by decide
  rw [BitVec.toNat_add, hsize, Nat.mod_eq_of_lt h]

section Turns

variable {read : Word → Word → Word} {img : Image} {st : VmState} {p : Permission}
  {stop : Word}

/-- Where the loop stands: at a page, or at the end. -/
def AtPage (stop : Word) (s : AuditState) : Prop :=
  s.address.toNat % 4096 = 0 ∨ s.address = stop

def AuditState.saw (s : AuditState) : Bool × Bool := (s.sawYes, s.sawNo)

def pagesLeft (stop : Word) (s : AuditState) : List Word := pagesFrom (pageAbove s.address) stop

/-- A page that is left is the one that the loop stands at. -/
theorem AtPage.page {s : AuditState} (h : AtPage stop s) {page : Word} {l : List Word}
    (hleft : pagesLeft stop s = page :: l) (hstop : stop.toNat < 2 ^ 39) :
    page = s.address ∧ s.address < stop ∧ pageAbove s.address * 4096 = s.address.toNat ∧
      pageAbove s.address < pageAbove stop ∧ l = pagesFrom (pageAbove s.address + 1) stop := by
  have hlt : pageAbove s.address < pageAbove stop := by
    refine Nat.lt_of_not_le fun hle => ?_
    rw [pagesLeft, pagesFrom_of_le hle] at hleft
    cases hleft
  have haligned : s.address.toNat % 4096 = 0 := h.resolve_right fun heq => by
    rw [heq] at hlt
    exact absurd hlt (Nat.lt_irrefl _)
  rw [pagesLeft, pagesFrom_cons hlt] at hleft
  obtain ⟨rfl, rfl⟩ := List.cons.inj hleft
  have hbelow : s.address.toNat < stop.toNat := by
    rw [pageAbove, pageAbove] at hlt
    omega
  have hstart : pageAbove s.address * 4096 = s.address.toNat := by
    rw [pageAbove]
    omega
  refine ⟨BitVec.eq_of_toNat_eq ?_, hbelow, hstart, hlt, rfl⟩
  rw [toNat_pageAddress (by omega)]
  exact hstart

/-- The end of what an address is mapped by; the pages up to it lie in one block. -/
theorem stepEnd {a : Word} {t : Translation} (haligned : a.toNat % 4096 = 0)
    (ha : a.toNat < 2 ^ 39) {step : Word}
    (hstep : step = if t.level = 2 then arm64L2BlockSize else arm64PageSize) :
    (alignDown a step + step).toNat % 4096 = 0 ∧ a.toNat < (alignDown a step + step).toNat ∧
      ∀ k, pageAbove a < k → k * 4096 < (alignDown a step + step).toNat →
        t.level = 2 ∧ k * 4096 / 2 ^ 21 = a.toNat / 2 ^ 21 := by
  by_cases hlevel : t.level = 2
  · obtain rfl : step = BitVec.ofNat 64 (2 ^ 21) := hstep.trans (if_pos hlevel)
    rw [toNat_alignDown_add (by decide) ha]
    refine ⟨by omega, by omega, fun k hk hk' => ⟨hlevel, ?_⟩⟩
    rw [pageAbove] at hk
    omega
  · obtain rfl : step = BitVec.ofNat 64 (2 ^ 12) := hstep.trans (if_neg hlevel)
    rw [toNat_alignDown_add (by decide) ha]
    refine ⟨by omega, by omega, fun k hk hk' => absurd hk' ?_⟩
    rw [pageAbove] at hk
    omega

/-- **Where the loop goes on**: all pages that it leaves out lie in the block of the one it was
at. -/
theorem nextDescriptorInRange_eq {a : Word} {t : Translation}
    (ha : translationIn read st a = some t) (haligned : a.toNat % 4096 = 0) (hlt : a < stop)
    (hstop : stop.toNat < 2 ^ 39) :
    ∃ next, nextDescriptorInRange read st a stop = some (next, t.descriptor) ∧
      (next.toNat % 4096 = 0 ∨ next = stop) ∧ pageAbove a < pageAbove next ∧
      pageAbove next ≤ pageAbove stop ∧ ∀ k, pageAbove a < k → k < pageAbove next →
        t.level = 2 ∧ k * 4096 / 2 ^ 21 = a.toNat / 2 ^ 21 := by
  rw [BitVec.lt_def] at hlt
  refine ⟨_, congrArg (Option.map _) ha, ?_⟩
  generalize hstep : (if t.level = 2 then arm64L2BlockSize else arm64PageSize) = step
  obtain ⟨hpage, hmore, hblock⟩ := stepEnd haligned (by omega) hstep.symm
  split
  · rename_i hover
    rw [BitVec.lt_def] at hover
    refine ⟨.inr rfl, ?_, Nat.le_refl _, fun k hk hk' => hblock k hk ?_⟩
    · rw [pageAbove, pageAbove]
      omega
    · rw [pageAbove] at hk'
      omega
  · rename_i hover
    rw [BitVec.lt_def] at hover
    refine ⟨.inl hpage, ?_, ?_, fun k hk hk' => hblock k hk ?_⟩
    · rw [pageAbove, pageAbove]
      omega
    · rw [pageAbove, pageAbove]
      omega
    · rw [pageAbove] at hk'
      omega

/-- A page of the same block changes nothing once its descriptor has been seen. -/
theorem lookAtPage_same {a b : Word} {t : Translation} (ha : translationIn read st a = some t)
    (h : b.toNat / 2 ^ 21 = a.toNat / 2 ^ 21) (hlevel : t.level = 2) {saw : Bool × Bool}
    (hyes : (saw.1 || p.test t.descriptor) = saw.1)
    (hno : (saw.2 || !p.test t.descriptor) = saw.2) (hnot : (saw.2 && saw.1) = false) :
    lookAtPage read img st p saw b = .inl saw := by
  rw [lookAtPage]
  split
  · rfl
  · obtain ⟨t', hb, hd⟩ := translationIn_congr ha h (.inl hlevel)
    rw [hb]
    simp only [hd, hyes, hno, hnot, Bool.false_eq_true, if_false]

/-- **A turn at a page** does what the look at it does, and leaves out none that would change
anything. -/
theorem auditTurn_turns (hstop : stop.toNat < 2 ^ 39) {s : AuditState} {page : Word}
    {l : List Word} (h : AtPage stop s) (hleft : pagesLeft stop s = page :: l) :
    TurnsAt (lookAtPage read img st p) (auditTurn read img st p stop) (AtPage stop)
      (pagesLeft stop) AuditState.saw s page l := by
  obtain ⟨rfl, hlt, hstart, hmore, rfl⟩ := h.page hleft hstop
  have haligned : s.address.toNat % 4096 = 0 := by omega
  rw [TurnsAt, auditTurn, if_pos hlt, lookAtPage]
  by_cases hguard : vmAddressIsGuardPage img s.address
  · rw [if_pos hguard, if_pos hguard]
    rw [BitVec.lt_def] at hlt
    have hnext := @toNat_add_pageSize s.address (by omega)
    have hpage : pageAbove (s.address + arm64PageSize) = pageAbove s.address + 1 := by
      rw [pageAbove, pageAbove, hnext]
      omega
    refine .inr ⟨{ s with address := s.address + arm64PageSize }, [], ?_, rfl, .inl ?_, ?_,
      List.forall_mem_nil _⟩
    · simp only [AuditState.saw]
    · dsimp only
      omega
    · rw [List.nil_append, pagesLeft, hpage]
  rw [if_neg hguard, if_neg hguard]
  cases ht : translationIn read st s.address with
  | none =>
    rw [nextDescriptorInRange, ht]
    exact .inl ⟨_, rfl, rfl⟩
  | some t =>
    obtain ⟨next, hnext, hpage, hfrom, hto, hblock⟩ :=
      nextDescriptorInRange_eq ht haligned hlt hstop
    rw [hnext]
    dsimp only [AuditState.saw]
    split
    · exact .inl ⟨_, rfl, rfl⟩
    · rename_i hnot
      refine .inr ⟨_, _, rfl, rfl, hpage, pagesFrom_append hfrom hto, fun b hb => ?_⟩
      obtain ⟨k, hk, rfl⟩ := List.mem_map.mp hb
      obtain ⟨hlow, hhigh⟩ := List.mem_range'_1.mp hk
      dsimp only at hhigh
      have hbefore : k < pageAbove next := by omega
      obtain ⟨hlevel, hsame⟩ := hblock k hlow hbefore
      refine lookAtPage_same ht ?_ hlevel ?_ ?_ (Bool.eq_false_iff.mpr hnot)
      · have hbelow := Nat.lt_of_lt_of_le hbefore hto
        rw [pageAbove] at hbelow
        rw [toNat_pageAddress (by omega)]
        exact hsame
      · simp
      · simp

/-- After the last page. -/
theorem auditTurn_done {s : AuditState} (h : AtPage stop s) (hleft : pagesLeft stop s = []) :
    auditTurn read img st p stop s = .inr (p.verdict s.saw.1 s.saw.2) := by
  refine if_neg fun hlt => ?_
  rw [BitVec.lt_def] at hlt
  have haligned : s.address.toNat % 4096 = 0 := h.resolve_right fun heq => by
    rw [heq] at hlt
    exact absurd hlt (Nat.lt_irrefl _)
  rw [pagesLeft, pagesFrom_cons (by rw [pageAbove, pageAbove]; omega)] at hleft
  cases hleft

/-- **The audit of a range ends**, with what the plain scan gives. -/
theorem vmActualPermission_scan {start : Word} (hlt : start < stop) (hstop : stop.toNat < 2 ^ 39) :
    ∃ turns, vmActualPermission read img st p turns start stop
      = some (scanPages read img st p start stop) := by
  have hdown : (alignDown start arm64PageSize).toNat = start.toNat / 4096 * 4096 := by
    rw [alignDown, show arm64PageSize - 1 = BitVec.ofNat 64 (2 ^ 12 - 1) from by decide,
      toNat_and_not]
    rfl
  have hat : AtPage stop ⟨alignDown start arm64PageSize, false, false⟩ := .inl (by
    dsimp only
    omega)
  obtain ⟨turns, hturns⟩ := leaves_scan (fun saw : Bool × Bool => p.verdict saw.1 saw.2)
    (fun _ hs hnil => auditTurn_done hs hnil)
    (fun _ _ _ hs hleft => auditTurn_turns hstop hs hleft) hat
  have hpages : pagesLeft stop ⟨alignDown start arm64PageSize, false, false⟩
      = pagesOf start stop := by
    rw [pagesLeft, pageAbove, hdown, show (start.toNat / 4096 * 4096 + 4095) / 4096
      = start.toNat / 4096 by omega]
    rfl
  refine ⟨turns, ?_⟩
  rw [vmActualPermission, if_neg (BitVec.not_le.mpr hlt), hturns, hpages]
  rfl

/-! ## What the words say -/

/-- The word for a permission, and the one for its absence. -/
def Permission.word (p : Permission) : Bool → List Byte
  | true => p.yes
  | false => p.no

/-- The page is a guard, or mapped with the permission as wanted. -/
def PageHas (read : Word → Word → Word) (img : Image) (st : VmState) (test : Word → Bool)
    (want : Bool) (page : Word) : Prop :=
  vmAddressIsGuardPage img page = false →
    ∃ t, translationIn read st page = some t ∧ test t.descriptor = want

/-- **What a scan finds**: something unmapped, something mixed, or one answer for all pages. -/
theorem scan_finds {l : List Word} {saw : Bool × Bool} (hnot : (saw.2 && saw.1) = false) :
    let answer := lookThrough (lookAtPage read img st p) (fun saw => p.verdict saw.1 saw.2) l saw
    answer = ascii "unmapped" ∨ answer = ascii "mixed" ∨
      ∃ want, answer = p.word want ∧ (bif want then saw.2 else saw.1) = false ∧
        ∀ page ∈ l, PageHas read img st p.test want page := by
  induction l generalizing saw with
  | nil =>
    obtain ⟨sawYes, sawNo⟩ := saw
    cases sawYes with
    | true => exact .inr (.inr ⟨true, rfl, by simpa using hnot, List.forall_mem_nil _⟩)
    | false =>
      cases sawNo with
      | true => exact .inr (.inr ⟨false, rfl, rfl, List.forall_mem_nil _⟩)
      | false => exact .inl rfl
  | cons page l ih =>
    by_cases hguard : vmAddressIsGuardPage img page
    · rw [lookThrough_inl (if_pos hguard)]
      refine (ih hnot).imp_right (Or.imp_right fun ⟨want, hword, hsaw, hall⟩ => ⟨want, hword, hsaw,
        List.forall_mem_cons.mpr ⟨fun hno => ?_, hall⟩⟩)
      rw [hguard] at hno
      cases hno
    cases ht : translationIn read st page with
    | none =>
      have hlook : lookAtPage read img st p saw page = .inr (ascii "unmapped") := by
        rw [lookAtPage, if_neg hguard, ht]
      exact .inl (lookThrough_inr hlook)
    | some t =>
      have hlook : lookAtPage read img st p saw page =
          if (saw.2 || !p.test t.descriptor) && (saw.1 || p.test t.descriptor) then
            .inr (ascii "mixed")
          else .inl (saw.1 || p.test t.descriptor, saw.2 || !p.test t.descriptor) := by
        rw [lookAtPage, if_neg hguard, ht]
      by_cases hboth : (saw.2 || !p.test t.descriptor) && (saw.1 || p.test t.descriptor)
      · rw [if_pos hboth] at hlook
        exact .inr (.inl (lookThrough_inr hlook))
      rw [if_neg hboth] at hlook
      rw [lookThrough_inl hlook]
      refine (ih (Bool.eq_false_iff.mpr hboth)).imp_right (Or.imp_right
        fun ⟨want, hword, hsaw, hall⟩ => ⟨want, hword, ?_, List.forall_mem_cons.mpr
          ⟨fun _ => ⟨t, ht, ?_⟩, hall⟩⟩)
      · cases want with
        | true => exact (Bool.or_eq_false_iff.mp hsaw).1
        | false => exact (Bool.or_eq_false_iff.mp hsaw).1
      · cases want with
        | true => simpa using (Bool.or_eq_false_iff.mp hsaw).2
        | false => exact (Bool.or_eq_false_iff.mp hsaw).2

/-- Every page of the range, the guards apart, is mapped with the permission as wanted. -/
def RangeHas (read : Word → Word → Word) (img : Image) (st : VmState) (test : Word → Bool)
    (want : Bool) (start stop : Word) : Prop :=
  ∀ a, start ≤ a → a < stop → vmAddressIsGuardPage img (alignDown a arm64PageSize) = false →
    ∃ t, translationIn read st a = some t ∧ test t.descriptor = want

/-- The pages of the range have all its addresses. -/
theorem rangeHas_of_pages {start : Word} (hstop : stop.toNat < 2 ^ 39) {test : Word → Bool}
    {want : Bool} (h : ∀ page ∈ pagesOf start stop, PageHas read img st test want page) :
    RangeHas read img st test want start stop := by
  intro a hlo hhi hguard
  rw [BitVec.le_def] at hlo
  rw [BitVec.lt_def] at hhi
  have hpage : (pageAddress (a.toNat / 4096)).toNat = a.toNat / 4096 * 4096 :=
    toNat_pageAddress (by omega)
  have hdown : alignDown a arm64PageSize = pageAddress (a.toNat / 4096) := by
    refine BitVec.eq_of_toNat_eq ?_
    rw [hpage, alignDown, show arm64PageSize - 1 = BitVec.ofNat 64 (2 ^ 12 - 1) from by decide,
      toNat_and_not]
    rfl
  have hmem : pageAddress (a.toNat / 4096) ∈ pagesOf start stop := by
    refine List.mem_map_of_mem (List.mem_range'_1.mpr ?_)
    omega
  obtain ⟨t, ht, htest⟩ := h _ hmem (hdown ▸ hguard)
  obtain ⟨t', ht', hd⟩ := @translationIn_congr read st _ a t ht (by omega) (.inr (by omega))
  exact ⟨t', ht', by rw [hd, htest]⟩

/-- Whatever is returned is what the scan gives, and it finds one of three things. -/
theorem vmActualPermission_finds {start : Word} (hlt : start < stop) (hstop : stop.toNat < 2 ^ 39)
    {turns : ℕ} {actual : List Byte}
    (h : vmActualPermission read img st p turns start stop = some actual) :
    actual = ascii "unmapped" ∨ actual = ascii "mixed" ∨
      ∃ want, actual = p.word want ∧ RangeHas read img st p.test want start stop := by
  obtain ⟨turns', hscan⟩ := @vmActualPermission_scan read img st p stop start hlt hstop
  rw [vmActualPermission, if_neg (BitVec.not_le.mpr hlt)] at h hscan
  obtain rfl := loop_unique hscan h
  refine (scan_finds rfl).imp_right (Or.imp_right fun ⟨want, hword, _, hall⟩ => ?_)
  exact ⟨want, hword, rangeHas_of_pages hstop hall⟩

/-- **Enforced means that all pages are as wanted**, where a status says so of one word only. -/
theorem rangeHas_of_enforced {start : Word} (hlt : start < stop) (hstop : stop.toNat < 2 ^ 39)
    {status : Bool → List Byte → List Byte} {want : Bool} {turns : ℕ}
    (hother : status want (ascii "unmapped") ≠ ascii "enforced" ∧
      status want (ascii "mixed") ≠ ascii "enforced")
    (hword : ∀ b, status want (p.word b) = ascii "enforced" → b = want)
    (h : (vmActualPermission read img st p turns start stop).map (status want)
      = some (ascii "enforced")) : RangeHas read img st p.test want start stop := by
  obtain ⟨actual, hactual, hstatus⟩ := Option.map_eq_some_iff.mp h
  rcases vmActualPermission_finds hlt hstop hactual with rfl | rfl | ⟨b, rfl, hall⟩
  · exact absurd hstatus hother.1
  · exact absurd hstatus hother.2
  · rw [← hword b hstatus]
    exact hall

/-- **The audit of a goal is exact**: it ends with what a look at every page gives, and reports a
permission as enforced only where every page has it as wanted. -/
structure AuditExact (read : Word → Word → Word) (img : Image) (st : VmState)
    (goal : VmPermissionGoal) : Prop where
  execute : ∃ turns, vmActualExecutePermissionForRange read img st turns goal.start goal.stop
    = some (scanPages read img st executePermission goal.start goal.stop)
  write : ∃ turns, vmActualWritePermissionForRange read img st turns goal.start goal.stop
    = some (scanPages read img st writePermission goal.start goal.stop)
  executeEnforced : ∀ turns,
    vmExecutePermissionStatus read img st turns goal = some (ascii "enforced") →
      RangeHas read img st arm64MmuDescIsExecuteNever goal.wantXn goal.start goal.stop
  writeEnforced : ∀ turns,
    vmWritePermissionStatus read img st turns goal = some (ascii "enforced") →
      RangeHas read img st arm64MmuDescIsReadOnly goal.wantRo goal.start goal.stop

/-- **The audit scans the pages**, whatever the tables and the memory hold. -/
theorem audit_scans_pages (read : Word → Word → Word) (img : Image) (st : VmState)
    {goal : VmPermissionGoal} (hlt : goal.start < goal.stop) (hstop : goal.stop.toNat < 2 ^ 39) :
    AuditExact read img st goal where
  execute := vmActualPermission_scan hlt hstop
  write := vmActualPermission_scan hlt hstop
  executeEnforced _ := by
    refine rangeHas_of_enforced (p := executePermission) hlt hstop ?_ ?_
    · cases goal.wantXn <;> decide
    · cases goal.wantXn <;> decide
  writeEnforced _ := by
    refine rangeHas_of_enforced (p := writePermission) hlt hstop ?_ ?_
    · cases goal.wantRo <;> decide
    · cases goal.wantRo <;> decide

end Turns

/-- The text of a small image, over the tables that `build_tables` leaves. -/
theorem audit_scans_text :
    AuditExact (bssLayout.read (buildTables bssLayout smallImage fun _ _ => 0).1.tables) smallImage
      (buildTables bssLayout smallImage fun _ _ => 0).1
      ⟨smallImage.textStart, smallImage.textEnd, false, true⟩ :=
  audit_scans_pages _ _ _ (by decide) (by decide)

end SaturnOS
