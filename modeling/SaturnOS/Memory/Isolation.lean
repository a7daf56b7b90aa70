import SaturnOS.Machinery.Runs
import SaturnOS.Memory.UserTables
import SaturnOS.Memory.Vm

/-!
# Memory/Isolation — live user spaces share no page

    space i ──owns──▸ slot s ──▸ tables and pages of s
    space j ──owns──▸ slot t ──▸ tables and pages of t        i ≠ j ⟹ s ≠ t

The world is the static arrays together with every `struct address_space` the kernel keeps; its
steps are the operations of `address_space.c` over the root `vm_init` built.  `SpacesOk` is the
invariant: each live space **owns** a slot in use whose tables have the slot shape over the kernel's
map, and no two live spaces own one slot.
-/

open Machinery

namespace SaturnOS

/-! ## The world -/

structure SpaceWorld where
  statics : SpaceStatics
  spaces : ℕ → AddressSpace := fun _ => {}

inductive SpaceOp
  | initUser (id : ℕ) (name : Option String)
  | loadUserImage (id : ℕ) (code : Buffer) (codeSize : Word) (data : Buffer)
      (dataSize entryOffset : Word)
  | writeUserData (id : ℕ) (offset : Word) (data : Buffer) (size : Word)
  | destroyUser (id : ℕ)

def spaceStep (L : Layout) (w : SpaceWorld) : SpaceOp → SpaceWorld
  | .initUser id name =>
    let r := addressSpaceInitUser L name w.statics.kernelAddressSpace.rootTable w.statics
    { statics := r.1, spaces := Function.update w.spaces id r.2 }
  | .loadUserImage id code codeSize data dataSize entryOffset =>
    let r := addressSpaceLoadUserImage w.statics (w.spaces id) code codeSize data dataSize
      entryOffset
    { statics := r.1, spaces := Function.update w.spaces id r.2.1 }
  | .writeUserData id offset data size =>
    { w with statics := (addressSpaceWriteUserData w.statics (w.spaces id) offset data size).1 }
  | .destroyUser id =>
    let r := addressSpaceDestroyUser w.statics (w.spaces id)
    { statics := r.1, spaces := Function.update w.spaces id r.2 }

/-- The world after `vm_init` and `address_space_init`, over whatever the arrays held. -/
def bootSpaces (L : Layout) (img : Image) (st : SpaceStatics) : SpaceWorld :=
  { statics := addressSpaceInit (vmRootTable L)
      { st with tables := (buildTables L img st.tables).1.tables } }

/-- A space in use: a user space with a table slot. -/
def AddressSpace.Live (space : AddressSpace) : Prop :=
  space.kind = .user ∧ space.userTableSlot < addressSpaceUserTableSlots

instance (space : AddressSpace) : Decidable space.Live := inferInstanceAs (Decidable (_ ∧ _))

/-! ## Owning a slot -/

/-- `id` is a table of the slot. -/
def TableId.OfSlot (slot : Fin 4) (id : TableId) : Prop :=
  id = .userL1 slot ∨ id = .userL2 slot ∨ ∃ i, id = .userL3 slot i

/-- The tables change at one slot only. -/
def OnlySlot (slot : Fin 4) (T T' : Tables) : Prop :=
  ∀ id, ¬ id.OfSlot slot → T' id = T id

theorem not_ofSlot_vm (slot : Fin 4) :
    ¬ (TableId.vmL1).OfSlot slot ∧ (∀ s, ¬ (TableId.vmL2 s).OfSlot slot)
      ∧ ¬ (TableId.vmKernelL3).OfSlot slot := by
  simp [TableId.OfSlot]

theorem not_ofSlot_user {slot slot' : Fin 4} (h : slot' ≠ slot) :
    ¬ (TableId.userL1 slot').OfSlot slot ∧ ¬ (TableId.userL2 slot').OfSlot slot
      ∧ ∀ i, ¬ (TableId.userL3 slot' i).OfSlot slot := by
  simp [TableId.OfSlot, h]

theorem clearSlot_onlySlot (slot : Fin 4) (st : SpaceStatics) :
    OnlySlot slot st.tables (clearSlot slot st).tables := by
  intro id hid
  have h3 : List.finRange 3 = [0, 1, 2] := by decide
  simp only [TableId.OfSlot, not_or, not_exists] at hid
  simp [clearSlot, h3, addressSpaceClearTable, hid.1, hid.2.1, hid.2.2]

theorem takeSlot_onlySlot (L : Layout) (root : Word) (slot : Fin 4) (st : SpaceStatics) :
    OnlySlot slot st.tables (takeSlot L root slot st).tables := by
  intro id hid
  have hclear := clearSlot_onlySlot slot { st with
    userTableSlotsUsed := Function.update st.userTableSlotsUsed slot true } id hid
  simp only [TableId.OfSlot, not_or, not_exists] at hid
  exact (buildSlot_of_ne L root slot _ hid.1 hid.2.1 hid.2.2).trans hclear

/-- **A space owns a slot**: it is rooted there, and the slot's tables have their shape over the
kernel's map. -/
structure Owns (L : Layout) (kl2 : Fin 4) (st : SpaceStatics) (space : AddressSpace)
    (slot : Fin 4) :
    Prop where
  slot_eq : space.userTableSlot = slot.val
  root : space.userRootTable = L.table (.userL1 slot)
  used : st.userTableSlotsUsed slot = true
  tables : SlotTables L slot (st.tables .vmL1) (st.tables (.vmL2 kl2)) st.tables

/-- Ownership of a slot survives a change at another. -/
theorem Owns.frame {L : Layout} {kl2 : Fin 4} {st st' : SpaceStatics} {space : AddressSpace}
    {slot other : Fin 4} (h : Owns L kl2 st space other) (hne : other ≠ slot)
    (hT : OnlySlot slot st.tables st'.tables)
    (hused : st'.userTableSlotsUsed other = st.userTableSlotsUsed other) :
    Owns L kl2 st' space other where
  slot_eq := h.slot_eq
  root := h.root
  used := by rw [hused, h.used]
  tables := by
    obtain ⟨hl1, hl2, -⟩ := not_ofSlot_vm slot
    obtain ⟨h1, h2, h3⟩ := not_ofSlot_user hne
    rw [hT _ hl1, hT _ (hl2 kl2)]
    exact h.tables.congr (hT _ h1) (hT _ h2) fun i => hT _ (h3 i)

/-- **The invariant of the world.** -/
structure SpacesOk (L : Layout) (kl2 : Fin 4) (w : SpaceWorld) : Prop where
  kernel : KernelMap L w.statics.tables
  root : w.statics.kernelAddressSpace.rootTable = vmRootTable L
  low : w.statics.tables .vmL1 0 = arm64MmuTableDesc (L.table (.vmL2 kl2))
  owns : ∀ id, (w.spaces id).Live → ∃ slot, Owns L kl2 w.statics (w.spaces id) slot
  distinct : ∀ i j, (w.spaces i).Live → (w.spaces j).Live →
    (w.spaces i).userTableSlot = (w.spaces j).userTableSlot → i = j

/-- **A step confined to one slot** keeps the invariant, if the spaces it leaves alone own other
slots and the one it writes is dead or owns that slot. -/
theorem SpacesOk.of_onlySlot {L : Layout} {kl2 : Fin 4} {w : SpaceWorld} (h : SpacesOk L kl2 w)
    (slot : Fin 4) {st : SpaceStatics} {id : ℕ} {space : AddressSpace}
    (hT : OnlySlot slot w.statics.tables st.tables)
    (hroot : st.kernelAddressSpace = w.statics.kernelAddressSpace)
    (hused : ∀ s, s ≠ slot → st.userTableSlotsUsed s = w.statics.userTableSlotsUsed s)
    (hothers : ∀ j, j ≠ id → (w.spaces j).Live → (w.spaces j).userTableSlot ≠ slot.val)
    (hspace : space.Live → Owns L kl2 st space slot) :
    SpacesOk L kl2 { statics := st, spaces := Function.update w.spaces id space } := by
  obtain ⟨hl1, hl2, hl3⟩ := not_ofSlot_vm slot
  refine ⟨h.kernel.congr (hT _ hl1) (fun s => hT _ (hl2 s)) (hT _ hl3), ?_, ?_, fun j hj => ?_,
    fun i j hi hj heq => ?_⟩
  · rw [hroot, h.root]
  · rw [hT _ hl1, h.low]
  · dsimp only at hj ⊢
    by_cases hid : j = id
    · obtain rfl := hid
      rw [Function.update_self] at hj ⊢
      exact ⟨slot, hspace hj⟩
    · rw [Function.update_of_ne hid] at hj ⊢
      obtain ⟨other, hown⟩ := h.owns j hj
      have hne : other ≠ slot := fun hs => hothers j hid hj (by rw [hown.slot_eq, hs])
      exact ⟨other, hown.frame hne hT (hused other hne)⟩
  · dsimp only at hi hj heq
    by_cases hid : i = id <;> by_cases hjd : j = id
    · rw [hid, hjd]
    · obtain rfl := hid
      rw [Function.update_self] at hi heq
      rw [Function.update_of_ne hjd] at hj heq
      exact absurd (heq.symm.trans (hspace hi).slot_eq) (hothers j hjd hj)
    · obtain rfl := hjd
      rw [Function.update_self] at hj heq
      rw [Function.update_of_ne hid] at hi heq
      exact absurd (heq.trans (hspace hj).slot_eq) (hothers i hid hi)
    · rw [Function.update_of_ne hid] at hi heq
      rw [Function.update_of_ne hjd] at hj heq
      exact h.distinct i j hi hj heq

/-- A step that leaves the tables and slots alone, and at most kills the space it writes. -/
theorem SpacesOk.of_sameTables {L : Layout} {kl2 : Fin 4} {w : SpaceWorld} (h : SpacesOk L kl2 w)
    {st : SpaceStatics} {id : ℕ} {space : AddressSpace} (hT : st.tables = w.statics.tables)
    (hroot : st.kernelAddressSpace = w.statics.kernelAddressSpace)
    (hused : st.userTableSlotsUsed = w.statics.userTableSlotsUsed)
    (hspace : space.Live → (w.spaces id).Live
      ∧ space.userTableSlot = (w.spaces id).userTableSlot
      ∧ space.userRootTable = (w.spaces id).userRootTable) :
    SpacesOk L kl2 { statics := st, spaces := Function.update w.spaces id space } := by
  -- every live space of the new world was live before, at the same slot and root
  have hold : ∀ j, ((Function.update w.spaces id space) j).Live → (w.spaces j).Live
      ∧ ((Function.update w.spaces id space) j).userTableSlot = (w.spaces j).userTableSlot
      ∧ ((Function.update w.spaces id space) j).userRootTable = (w.spaces j).userRootTable := by
    intro j hj
    by_cases hid : j = id
    · obtain rfl := hid
      rw [Function.update_self] at hj ⊢
      exact hspace hj
    · rw [Function.update_of_ne hid] at hj ⊢
      exact ⟨hj, rfl, rfl⟩
  refine ⟨?_, ?_, ?_, fun j hj => ?_, fun i j hi hj heq => ?_⟩
  · rw [hT]
    exact h.kernel
  · rw [hroot, h.root]
  · rw [hT, h.low]
  · obtain ⟨hlive, hslot, hr⟩ := hold j hj
    obtain ⟨slot, hown⟩ := h.owns j hlive
    exact ⟨slot, ⟨hslot.trans hown.slot_eq, hr.trans hown.root, by rw [hused, hown.used],
      by rw [hT]; exact hown.tables⟩⟩
  · obtain ⟨hli, hsi, -⟩ := hold i hi
    obtain ⟨hlj, hsj, -⟩ := hold j hj
    exact h.distinct i j hli hlj (hsi.symm.trans (heq.trans hsj))

/-! ## The operations -/

section Operations

variable {L : Layout} {kl2 : Fin 4} {w : SpaceWorld} (h : SpacesOk L kl2 w)

include h

/-- **A new space takes a slot no live space owns.** -/
theorem spacesOk_initUser (id : ℕ) (name : Option String) :
    SpacesOk L kl2 (spaceStep L w (.initUser id name)) := by
  simp only [spaceStep, h.root]
  cases hslot : lowestFreeSlot w.statics with
  | none =>
    obtain ⟨hst, hdead, -⟩ := addressSpaceInitUser_none L name (vmRootTable L) hslot
    rw [hst]
    refine h.of_sameTables rfl rfl rfl fun hlive => ?_
    have := hlive.2
    rw [hdead] at this
    exact absurd this (Nat.lt_irrefl _)
  | some slot =>
    obtain ⟨shared, hinit⟩ := addressSpaceInitUser_some L name (vmRootTable L) hslot
    have hfree := lowestFreeSlot_some hslot
    rw [hinit]
    refine h.of_onlySlot slot (takeSlot_onlySlot L _ slot w.statics) rfl ?_ ?_ ?_
    · intro s hs
      exact Function.update_of_ne hs _ _
    · intro j _ hj heq
      obtain ⟨other, hown⟩ := h.owns j hj
      have hsame : other = slot := Fin.ext (hown.slot_eq.symm.trans heq)
      rw [← hsame, hown.used] at hfree
      exact nomatch hfree
    · intro _
      have hvm := clearSlot_onlySlot slot { w.statics with
        userTableSlotsUsed := Function.update w.statics.userTableSlotsUsed slot true }
      obtain ⟨hl1, hl2, -⟩ := not_ofSlot_vm slot
      have htaken := takeSlot_onlySlot L (vmRootTable L) slot w.statics
      refine ⟨rfl, rfl, Function.update_self _ _ _, ?_⟩
      rw [htaken _ hl1, htaken _ (hl2 kl2), ← hvm _ hl1, ← hvm _ (hl2 kl2)]
      exact slotTables_buildSlot_vmL1 slot ((congrFun (hvm _ hl1) 0).trans h.low)

/-- **A destroyed space gives its slot back**, and nobody else owned it. -/
theorem spacesOk_destroyUser (id : ℕ) : SpacesOk L kl2 (spaceStep L w (.destroyUser id)) := by
  simp only [spaceStep, addressSpaceDestroyUser]
  split
  · rename_i hlive
    refine h.of_onlySlot ⟨(w.spaces id).userTableSlot, hlive.2⟩
      (clearSlot_onlySlot _ w.statics) rfl ?_ ?_ ?_
    · intro s hs
      exact Function.update_of_ne hs _ _
    · intro j hj hjl heq
      exact hj (h.distinct j id hjl hlive heq)
    · intro hdead
      exact absurd hdead.2 (Nat.lt_irrefl _)
  · exact h.of_sameTables rfl rfl rfl fun hlive => ⟨hlive, rfl, rfl⟩

theorem spacesOk_loadUserImage (id : ℕ) (code : Buffer) (codeSize : Word) (data : Buffer)
    (dataSize entryOffset : Word) :
    SpacesOk L kl2 (spaceStep L w (.loadUserImage id code codeSize data dataSize entryOffset)) := by
  simp only [spaceStep, addressSpaceLoadUserImage]
  split
  · split
    · exact h.of_sameTables rfl rfl rfl fun hlive => ⟨hlive, rfl, rfl⟩
    · exact h.of_sameTables rfl rfl rfl fun hlive => ⟨hlive, rfl, rfl⟩
  · exact h.of_sameTables rfl rfl rfl fun hlive => ⟨hlive, rfl, rfl⟩

theorem spacesOk_writeUserData (id : ℕ) (offset : Word) (data : Buffer) (size : Word) :
    SpacesOk L kl2 (spaceStep L w (.writeUserData id offset data size)) := by
  have hsame : spaceStep L w (.writeUserData id offset data size)
      = { statics := (addressSpaceWriteUserData w.statics (w.spaces id) offset data size).1,
          spaces := Function.update w.spaces id (w.spaces id) } := by
    rw [Function.update_eq_self]
    rfl
  rw [hsame]
  simp only [addressSpaceWriteUserData]
  split
  · split
    · exact h.of_sameTables rfl rfl rfl fun hlive => ⟨hlive, rfl, rfl⟩
    · exact h.of_sameTables rfl rfl rfl fun hlive => ⟨hlive, rfl, rfl⟩
  · exact h.of_sameTables rfl rfl rfl fun hlive => ⟨hlive, rfl, rfl⟩

/-- **Every operation keeps the invariant.** -/
theorem spacesOk_step (op : SpaceOp) : SpacesOk L kl2 (spaceStep L w op) := by
  cases op with
  | initUser id name => exact spacesOk_initUser h id name
  | loadUserImage id code codeSize data dataSize entryOffset =>
    exact spacesOk_loadUserImage h id code codeSize data dataSize entryOffset
  | writeUserData id offset data size => exact spacesOk_writeUserData h id offset data size
  | destroyUser id => exact spacesOk_destroyUser h id

end Operations

/-- The booted world has no live space over a built kernel map. -/
theorem spacesOk_boot (L : Layout) (img : Image) (st : SpaceStatics) :
    ∃ kl2, SpacesOk L kl2 (bootSpaces L img st) := by
  have hkernel := kernelMap_buildTables L img st.tables
  rw [bootSpaces]
  generalize (buildTables L img st.tables).1.tables = T at hkernel ⊢
  rcases hkernel.l1 0 with h0 | ⟨kl2, hlow, -⟩
  · exact absurd h0 hkernel.low
  · refine ⟨kl2, hkernel, rfl, hlow, fun id hlive => ?_, fun i _ hi => ?_⟩
    · exact nomatch hlive.1
    · exact nomatch hi.1

/-! ## What a live space can reach -/

/-- An address below `2³⁹` is either served by the kernel's own mapping, closed to EL0, or lies in
the first page of a region and maps to the slot's own page. -/
def KernelOrOwnPage (L : Layout) (T : Tables) (space : AddressSpace) (address : Word) : Prop :=
  (walk L T space.userRootTable address = walk L T (vmRootTable L) address
      ∧ ∀ t, walk L T (vmRootTable L) address = some t →
        arm64MmuDescHasUserAccess t.descriptor = false)
    ∨ ∃ slot i, space.userTableSlot = (slot : Fin 4).val ∧ InFirstPage i address
      ∧ walk L T space.userRootTable address = some
          ⟨L.base (.region slot i) + (address &&& (arm64PageSize - 1)),
            arm64MmuL3PageDesc (L.base (.region slot i)) (userRegionTable i).attributes, 3⟩

/-- The regions lie outside the kernel's plan. -/
theorem not_planned_region (i : Fin 3) : planned 0 (regionL2 i) = false := by
  revert i; decide

/-- **A space that owns a slot reaches the kernel's map or its own pages.** -/
theorem Owns.kernelOrOwnPage {L : Layout} {kl2 : Fin 4} {st : SpaceStatics} {space : AddressSpace}
    {slot : Fin 4} (h : Owns L kl2 st space slot) (hkernel : KernelMap L st.tables)
    (hlow : st.tables .vmL1 0 = arm64MmuTableDesc (L.table (.vmL2 kl2))) {address : Word}
    (hlt : address.toNat < 2 ^ 39) : KernelOrOwnPage L st.tables space address := by
  have hclosed : ∀ t, walk L st.tables (vmRootTable L) address = some t →
      arm64MmuDescHasUserAccess t.descriptor = false := fun t => walk_kernel_noUserAccess hkernel
  rw [KernelOrOwnPage, h.root]
  by_cases hregion : tableIndex (arm64MmuL1Index address) = 0
      ∧ ∃ i, tableIndex (arm64MmuL2Index address) = regionL2 i
  · obtain ⟨h1, i, h2⟩ := hregion
    by_cases h3 : tableIndex (arm64MmuL3Index address) = regionL3 i
    · have hpage := (inFirstPage_iff hlt).mpr ⟨h1, h2, h3⟩
      exact .inr ⟨slot, i, h.slot_eq, hpage, walk_user_firstPage h.tables hpage⟩
    · have hkernelNone : walk L st.tables (vmRootTable L) address = none :=
        walk_kernel_unplanned hkernel (by rw [h1, h2, not_planned_region])
      exact .inl ⟨by rw [walk_user_beyond h.tables h1 h2 h3, hkernelNone], hclosed⟩
  · refine .inl ⟨walk_user_elsewhere h.tables rfl rfl hlow fun h1 i h2 => ?_, hclosed⟩
    exact hregion ⟨h1, i, h2⟩

/-- The physical page of a translation. -/
def Translation.page (t : Translation) : ℕ := t.physical.toNat / 4096

/-- An address inside a page lies on that page. -/
theorem page_of_base {L : Layout} (o : StaticPage) (address : Word) :
    (L.base o + (address &&& (arm64PageSize - 1))).toNat / 4096 = (L.base o).toNat / 4096 := by
  obtain ⟨hal, hlt⟩ := L.pageAddress o
  have hoff : (address &&& (arm64PageSize - 1)).toNat < 4096 := by
    have h : (address &&& (arm64PageSize - 1)).toNat ≤ (arm64PageSize - 1).toNat := by
      rw [BitVec.toNat_and]
      exact Nat.and_le_right
    have : (arm64PageSize - 1).toNat = 4095 := by decide
    omega
  rw [BitVec.toNat_add]
  omega

/-- **Distinct static pages are distinct physical pages.** -/
theorem base_page_injective {L : Layout} {o o' : StaticPage}
    (h : (L.base o).toNat / 4096 = (L.base o').toNat / 4096) : o = o' := by
  have hal := (L.pageAddress o).aligned
  have hal' := (L.pageAddress o').aligned
  refine L.base_injective (BitVec.eq_of_toNat_eq ?_)
  omega

/-- Two live spaces have no physical page in common that EL0 can access from both. -/
def NoSharedPage (L : Layout) (T : Tables) (space space' : AddressSpace) : Prop :=
  ∀ address address' t t', address.toNat < 2 ^ 39 → address'.toNat < 2 ^ 39 →
    walk L T space.userRootTable address = some t →
    walk L T space'.userRootTable address' = some t' →
    arm64MmuDescHasUserAccess t.descriptor = true →
    arm64MmuDescHasUserAccess t'.descriptor = true → t.page ≠ t'.page

/-- An EL0-accessible page of a space is a page of its slot. -/
theorem KernelOrOwnPage.own {L : Layout} {T : Tables} {space : AddressSpace} {address : Word}
    (h : KernelOrOwnPage L T space address) {t : Translation}
    (ht : walk L T space.userRootTable address = some t)
    (hu : arm64MmuDescHasUserAccess t.descriptor = true) :
    ∃ slot i, space.userTableSlot = (slot : Fin 4).val
      ∧ t.page = (L.base (.region slot i)).toNat / 4096 := by
  rcases h with ⟨hk, hclosed⟩ | ⟨slot, i, hslot, -, hown⟩
  · rw [hk] at ht
    rw [hclosed t ht] at hu
    exact nomatch hu
  · rw [hown] at ht
    obtain rfl := Option.some.inj ht
    exact ⟨slot, i, hslot, page_of_base _ _⟩

theorem noSharedPage_of_slot_ne {L : Layout} {T : Tables} {space space' : AddressSpace}
    (h : ∀ a, a.toNat < 2 ^ 39 → KernelOrOwnPage L T space a)
    (h' : ∀ a, a.toNat < 2 ^ 39 → KernelOrOwnPage L T space' a)
    (hne : space.userTableSlot ≠ space'.userTableSlot) : NoSharedPage L T space space' := by
  intro a a' t t' ha ha' ht ht' hu hu' heq
  obtain ⟨slot, i, hs, hp⟩ := (h a ha).own ht hu
  obtain ⟨slot', i', hs', hp'⟩ := (h' a' ha').own ht' hu'
  have hpage := base_page_injective (hp.symm.trans (heq.trans hp'))
  obtain ⟨rfl, -⟩ := StaticPage.region.inj hpage
  exact hne (hs.trans hs'.symm)

/-- **Isolation.**  However the spaces are created, loaded, written and destroyed: a live space
reaches, below `2³⁹`, the kernel's own map or the first pages of its regions, and no two live spaces
have an EL0-accessible page in common. -/
theorem user_spaces_isolated (L : Layout) (img : Image) (st : SpaceStatics) (ops : List SpaceOp) :
    Always (fun w op => some (spaceStep L w op)) (fun w =>
      (∀ id, (w.spaces id).Live → ∀ address : Word, address.toNat < 2 ^ 39 →
        KernelOrOwnPage L w.statics.tables (w.spaces id) address)
      ∧ ∀ id id', id ≠ id' → (w.spaces id).Live → (w.spaces id').Live →
        NoSharedPage L w.statics.tables (w.spaces id) (w.spaces id'))
      (bootSpaces L img st) ops := by
  obtain ⟨kl2, h₀⟩ := spacesOk_boot L img st
  refine Always.of_inv (I := SpacesOk L kl2) (fun w op w' h hstep => ?_) (fun w h => ?_) h₀ ops
  · obtain rfl := Option.some.inj hstep
    exact spacesOk_step h op
  · have hreach : ∀ id, (w.spaces id).Live → ∀ address : Word, address.toNat < 2 ^ 39 →
        KernelOrOwnPage L w.statics.tables (w.spaces id) address := by
      intro id hlive address hlt
      obtain ⟨slot, hown⟩ := h.owns id hlive
      exact hown.kernelOrOwnPage h.kernel h.low hlt
    refine ⟨hreach, fun id id' hne hlive hlive' => ?_⟩
    refine noSharedPage_of_slot_ne (hreach id hlive) (hreach id' hlive') fun heq => ?_
    exact hne (h.distinct id id' hlive hlive' heq)

end SaturnOS
