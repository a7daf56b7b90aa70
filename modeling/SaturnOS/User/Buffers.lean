import SaturnOS.User.Syscalls

/-!
# User/Buffers — a caller's buffer

    buffer + i ──walk──▸ cell i of one page after the other        offset = address mod 4096

A byte of the caller keeps its place in the page (`userCell_offset`), so the bytes of a buffer stand
in different cells, and what the kernel stores there it loads back (`userStoreBytes_load`).  Where
the bytes stand depends on the tables and the root alone: calls that leave these leave every buffer
(`SameView`).
-/

open Machinery

namespace SaturnOS

/-! ## Where a byte stands -/

section Offsets

variable {L : Layout} {T : Tables} {root table address : Word} {t : Translation}

/-- A base without its low bits, and an offset with all of them. -/
theorem low_add {d m l : Word} (hm : m.toNat % 2 ^ 12 = 0) (hl : l.toNat % 2 ^ 12 = 2 ^ 12 - 1) :
    ((d &&& m) + (address &&& l)).toNat % 4096 = address.toNat % 4096 := by
  have hbase : (d.toNat &&& m.toNat) % 2 ^ 12 = 0 := by
    rw [Nat.and_mod_two_pow, hm, Nat.and_zero]
  have hoffset : (address.toNat &&& l.toNat) % 2 ^ 12 = address.toNat % 2 ^ 12 := by
    rw [Nat.and_mod_two_pow, hl, Nat.and_two_pow_sub_one_eq_mod, Nat.mod_mod]
  rw [BitVec.toNat_add, BitVec.toNat_and, BitVec.toNat_and]
  omega

theorem walkL3_low (h : walkL3 L T table address = some t) :
    t.physical.toNat % 4096 = address.toNat % 4096 := by
  rw [walkL3] at h
  obtain ⟨-, h⟩ := Option.ite_none_right_eq_some.mp h
  obtain rfl := Option.some.inj h
  exact low_add (by decide) (by decide)

theorem walkL2_low (h : walkL2 L T table address = some t) :
    t.physical.toNat % 4096 = address.toNat % 4096 := by
  rw [walkL2] at h
  split at h
  · obtain rfl := Option.some.inj h
    exact low_add (by decide) (by decide)
  · obtain ⟨-, h⟩ := Option.ite_none_right_eq_some.mp h
    exact walkL3_low h

/-- **A walk keeps the place in the page.** -/
theorem walk_low (h : walk L T root address = some t) :
    t.physical.toNat % 4096 = address.toNat % 4096 := by
  rw [walk] at h
  split at h
  · obtain rfl := Option.some.inj h
    exact low_add (by decide) (by decide)
  · obtain ⟨-, h⟩ := Option.ite_none_right_eq_some.mp h
    exact walkL2_low h

theorem userCell_offset {k : Kernel} {c : UserCell} (h : userCell L k address = some c) :
    c.offset.val = address.toNat % 4096 := by
  obtain ⟨t, ht, hc⟩ := Option.bind_eq_some_iff.mp h
  obtain ⟨p, -, rfl⟩ := Option.map_eq_some_iff.mp hc
  exact walk_low ht

end Offsets

/-! ## What a caller sees -/

/-- The same memory map, and the same range that may be asked for. -/
structure SameView (k k' : Kernel) : Prop where
  tables : k'.spaces.tables = k.spaces.tables
  ttbr0 : k'.ttbr0 = k.ttbr0
  space : syscallAddressSpace k' = syscallAddressSpace k

section View

variable {L : Layout} {k k' k'' : Kernel} {o o' : OsState}

theorem SameView.refl (k : Kernel) : SameView k k := ⟨rfl, rfl, rfl⟩

theorem SameView.trans (h : SameView k k') (h' : SameView k' k'') : SameView k k'' :=
  ⟨h'.tables.trans h.tables, h'.ttbr0.trans h.ttbr0, h'.space.trans h.space⟩

theorem SameView.setPages (k : Kernel) (pages : Fin 4 → Fin 3 → Page) :
    SameView k (k.setPages pages) :=
  ⟨rfl, rfl, rfl⟩

theorem SameView.userCell (h : SameView k k') (address : Word) :
    userCell L k' address = SaturnOS.userCell L k address := by
  rw [SaturnOS.userCell, h.tables, h.ttbr0]
  rfl

theorem SameView.readable (h : SameView o.kernel o'.kernel) (address size : Word) :
    o'.readable address size = o.readable address size := by
  rw [OsState.readable, h.space]
  rfl

theorem SameView.writable (h : SameView o.kernel o'.kernel) (address size : Word) :
    o'.writable address size = o.writable address size := by
  rw [OsState.writable, h.space]
  rfl

/-- What is loaded is in the pages. -/
theorem SameView.userLoad (h : SameView k k')
    (hpages : k'.spaces.userRegionPages = k.spaces.userRegionPages) (address : Word) :
    userLoad L k' address = SaturnOS.userLoad L k address := by
  rw [SaturnOS.userLoad, h.userCell, hpages]
  rfl

theorem SameView.userLoadBytes (h : SameView k k')
    (hpages : k'.spaces.userRegionPages = k.spaces.userRegionPages) (address : Word) (n : ℕ) :
    userLoadBytes L k' address n = SaturnOS.userLoadBytes L k address n := by
  induction n generalizing address with
  | zero => rfl
  | succ n ih => rw [SaturnOS.userLoadBytes, h.userLoad hpages, SaturnOS.userLoadBytes, ih]

end View

/-! ## Bytes loaded and stored -/

section Buffer

variable {L : Layout} {k : Kernel} {address : Word} {n : ℕ} {bytes : List Byte}

/-- The byte after the first `i + 1` is that after the `i` from the next on. -/
theorem next_address (address : Word) (i : ℕ) :
    address + 1 + BitVec.ofNat 64 i = address + BitVec.ofNat 64 (i + 1) := by
  rw [Nat.add_comm i 1, BitVec.ofNat_add, BitVec.add_assoc]
  rfl

theorem length_userLoadBytes (h : userLoadBytes L k address n = some bytes) : bytes.length = n := by
  induction n generalizing address bytes with
  | zero =>
    obtain rfl := Option.some.inj h
    rfl
  | succ n ih =>
    obtain ⟨b, -, h⟩ := Option.bind_eq_some_iff.mp h
    obtain ⟨bs, hbs, rfl⟩ := Option.map_eq_some_iff.mp h
    exact congrArg Nat.succ (ih hbs)

/-- The bytes of a buffer, one by one. -/
theorem getElem?_userLoadBytes (h : userLoadBytes L k address n = some bytes) {i : ℕ} (hi : i < n) :
    bytes[i]? = userLoad L k (address + BitVec.ofNat 64 i) := by
  induction n generalizing address bytes i with
  | zero => exact absurd hi (Nat.not_lt_zero i)
  | succ n ih =>
    obtain ⟨b, hb, h⟩ := Option.bind_eq_some_iff.mp h
    obtain ⟨bs, hbs, rfl⟩ := Option.map_eq_some_iff.mp h
    cases i with
    | zero =>
      rw [List.getElem?_cons_zero, ← hb, show address + BitVec.ofNat 64 0
        = address from BitVec.add_zero _]
    | succ i =>
      rw [List.getElem?_cons_succ, ih hbs (Nat.lt_of_succ_lt_succ hi), next_address]

/-- **What `vfs_write` reads through the caller's pointer.** -/
theorem cells_userLoad (h : userLoadBytes L k address n = some bytes) :
    cells (fun i => (userLoad L k (address + BitVec.ofNat 64 i)).getD 0) 0 n = bytes := by
  have hlen := length_userLoadBytes h
  refine cells_eq hlen fun i hi => ?_
  have hget := getElem?_userLoadBytes h hi
  rw [Nat.zero_add, ← hget, List.getElem?_eq_getElem (by omega)]
  rfl

/-- Every byte of the buffer is mapped and may be written. -/
def WritableCells (L : Layout) (k : Kernel) (address : Word) (n : ℕ) : Prop :=
  ∀ i < n, ∃ c, userCell L k (address + BitVec.ofNat 64 i) = some c ∧ c.writable = true

theorem WritableCells.tail (h : WritableCells L k address (n + 1)) :
    WritableCells L k (address + 1) n := by
  intro i hi
  rw [next_address]
  exact h (i + 1) (Nat.succ_lt_succ hi)

/-- A page elsewhere, or another byte of the page. -/
theorem setCell_other {pages : Fin 4 → Fin 3 → Page} {c : UserCell} {b : Byte} {slot : Fin 4}
    {region : Fin 3} {offset : Fin 4096} (h : offset ≠ c.offset) :
    setCell pages c b slot region offset = pages slot region offset := by
  rw [setCell]
  by_cases hs : slot = c.slot
  · subst hs
    rw [Function.update_self]
    by_cases hr : region = c.region
    · subst hr
      rw [Function.update_self, Function.update_of_ne h]
    · rw [Function.update_of_ne hr]
  · rw [Function.update_of_ne hs]

theorem setCell_self (pages : Fin 4 → Fin 3 → Page) (c : UserCell) (b : Byte) :
    setCell pages c b c.slot c.region c.offset = b := by
  rw [setCell, Function.update_self, Function.update_self, Function.update_self]

/-- **What is stored is loaded back**, and bytes at other places of a page stay. -/
theorem userStoreBytes_load (hn : bytes.length ≤ 4096)
    (h : WritableCells L k address bytes.length) :
    ∃ pages, userStoreBytes L address bytes k = some (k.setPages pages) ∧
      userLoadBytes L (k.setPages pages) address bytes.length = some bytes ∧
      ∀ slot region (offset : Fin 4096),
        (∀ i < bytes.length, offset.val ≠ (address + BitVec.ofNat 64 i).toNat % 4096) →
        pages slot region offset = k.spaces.userRegionPages slot region offset := by
  induction bytes generalizing address k with
  | nil => exact ⟨k.spaces.userRegionPages, rfl, rfl, fun _ _ _ _ => rfl⟩
  | cons b bytes ih =>
    obtain ⟨c, hc, hwritable⟩ := h 0 (Nat.succ_pos _)
    rw [show address + BitVec.ofNat 64 0 = address from BitVec.add_zero _] at hc
    have hoffset := userCell_offset hc
    set k₁ := k.setPages (setCell k.spaces.userRegionPages c b) with hk₁
    have hview : SameView k k₁ := SameView.setPages k _
    have hstore : userStore L k address b = some k₁ := by
      rw [userStore, hc]
      exact if_pos hwritable
    have htail : WritableCells L k₁ (address + 1) bytes.length := fun i hi => by
      rw [hview.userCell]
      exact h.tail i hi
    obtain ⟨pages, hpages, hload, hframe⟩ := @ih k₁ (address + 1) (Nat.le_of_succ_le hn) htail
    refine ⟨pages, ?_, ?_, fun slot region offset hne => ?_⟩
    · rw [userStoreBytes, hstore]
      exact hpages
    · -- the bytes after the first are stored at other places of the page
      have hkept : pages c.slot c.region c.offset = b := by
        rw [hframe _ _ _ fun i hi => ?_]
        · exact setCell_self _ c b
        · rw [hoffset, next_address, BitVec.toNat_add, BitVec.toNat_ofNat]
          have hi' : i + 1 < 4096 := by
            rw [List.length_cons] at hn
            omega
          omega
      have hfirst : userLoad L (k.setPages pages) address = some b := by
        rw [userLoad, (SameView.setPages k pages).userCell, hc]
        exact congrArg some hkept
      rw [List.length_cons, userLoadBytes, hfirst]
      show Option.map _ (userLoadBytes L (k₁.setPages pages) _ _) = _
      rw [hload]
      rfl
    · rw [hframe slot region offset fun i hi => ?_]
      · refine setCell_other fun heq => hne 0 (Nat.succ_pos _) ?_
        rw [heq, hoffset, show address + BitVec.ofNat 64 0 = address from BitVec.add_zero _]
      · rw [next_address]
        exact hne (i + 1) (Nat.succ_lt_succ hi)

end Buffer

end SaturnOS
