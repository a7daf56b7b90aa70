import Mathlib.Data.Finset.Card
import Mathlib.Data.Fintype.Basic
import SaturnOS.Machinery.Names
import SaturnOS.Machinery.Runs
import SaturnOS.Fs.Contents

/-!
# Fs/Namespace — the paths of RAMFS are a tree

    /a        directory
    /a/b      file            "/a" ++ '/' ++ "b"
    /a//c     no: "/a/" is no directory

Every used node has a path of its own, above it there are directories only, and the two counts are
the numbers of files and directories (`NamesOk`).  A new node, a removal and a rename are the three
operations on the tree of `Machinery/Names`; everything else leaves the paths alone.
-/

open Machinery

namespace SaturnOS

/-! ## Strings -/

/-- Comparing with a path and a `/` is asking what lies beneath. -/
theorem pathBeneath_iff {m : ℕ → Byte} : ∀ {a : ℕ} {p q : List Byte}, 0 ∉ p → Spells m a q →
    (pathBeneath m a p = true ↔ Beneath slash p q)
  | a, [], [], _, hq => by
    rw [pathBeneath, show m a = 0 from hq]
    exact iff_of_false (by decide) not_beneath_nil
  | a, [], d :: q, _, hq => by
    rw [pathBeneath, hq.2.1, beq_iff_eq, nil_beneath_cons]
    exact eq_comm
  | a, c :: p, [], hp, hq => by
    rw [pathBeneath, show m a = 0 from hq, Bool.and_eq_true, beq_iff_eq]
    exact iff_of_false (fun h => hp (h.1 ▸ List.mem_cons_self)) not_beneath_nil
  | a, c :: p, d :: q, hp, hq => by
    rw [pathBeneath, hq.2.1, Bool.and_eq_true, beq_iff_eq,
      pathBeneath_iff (fun h => hp (List.mem_cons_of_mem c h)) hq.2.2, cons_beneath_cons,
      eq_comm (a := d)]

theorem lastSlash_spec (length last : ℕ) (s : List Byte) :
    (lastSlash length last s = last
        ∨ ∃ m, lastSlash length last s = length + m ∧ s[m]? = some slash)
      ∧ ∀ m, lastSlash length last s < length + m → s[m]? ≠ some slash := by
  induction s generalizing length last with
  | nil => exact ⟨.inl rfl, fun m _ => by simp⟩
  | cons c s ih =>
    obtain ⟨hcases, hafter⟩ := ih (length + 1) (if c = slash then length else last)
    rw [lastSlash]
    constructor
    · rcases hcases with h | ⟨m, h, hm⟩
      · by_cases hc : c = slash
        · rw [if_pos hc] at h
          refine .inr ⟨0, ?_, by rw [hc]; rfl⟩
          rw [if_pos hc]
          exact h
        · rw [if_neg hc] at h ⊢
          exact .inl h
      · exact .inr ⟨m + 1, by omega, hm⟩
    · intro m hm
      cases m with
      | zero =>
        rw [List.getElem?_cons_zero]
        rintro hc
        rw [if_pos (Option.some.inj hc)] at *
        rcases hcases with h | ⟨m, h, -⟩ <;> omega
      | succ m => exact hafter m (by omega)

/-! ## The invariant -/

/-- The path of a used node. -/
def nodeName (v : Vfs) (i : Fin vfsMaxNodes) : Option (List Byte) :=
  if (v.nodes i).used then some (stringAt (v.nodes i).path 0 vfsMaxPath) else none

/-- The used nodes of a kind. -/
def kindCount (v : Vfs) (kind : NodeKind) : ℕ :=
  (Finset.univ.filter fun i => (v.nodes i).used = true ∧ (v.nodes i).kind = kind).card

structure NamesOk (v : Vfs) : Prop where
  valid : ∀ i, (v.nodes i).used = true →
    ∃ path : CStr, vfsPathValid path = true ∧ Spells (v.nodes i).path 0 path.chars
  tree : Tree slash (nodeName v) fun i => (v.nodes i).kind = .directory
  files : v.fileCount = kindCount v .file ∧ v.fileCount ≤ vfsMaxFiles
  dirs : v.dirCount = kindCount v .directory ∧ v.dirCount ≤ vfsMaxDirs
  sizes : ∀ i, (v.nodes i).size ≤ vfsMaxFileSize
    ∧ ((v.nodes i).used = true → (v.nodes i).kind = .directory → (v.nodes i).size = 0)

theorem nodeName_eq {v : Vfs} {i : Fin vfsMaxNodes} {path : CStr} (hused : (v.nodes i).used = true)
    (hspells : Spells (v.nodes i).path 0 path.chars) (hpath : vfsPathValid path = true) :
    nodeName v i = some path.chars := by
  rw [nodeName, if_pos hused, stringAt_eq hspells (pathValid_iff.mp hpath).2.1.le]

theorem nodeName_none {v : Vfs} {i : Fin vfsMaxNodes} : nodeName v i = none
    ↔ (v.nodes i).used = false := by
  rw [nodeName]
  split
  · rename_i h
    rw [h]
    simp
  · rename_i h
    simpa using h

theorem nodeName_congr {v v' : Vfs} {i : Fin vfsMaxNodes}
    (hused : (v'.nodes i).used = (v.nodes i).used) (hpath : (v'.nodes i).path = (v.nodes i).path) :
    nodeName v' i = nodeName v i := by
  rw [nodeName, nodeName, hused, hpath]

theorem vfsPathValid_ne_nil {path : CStr} (h : vfsPathValid path = true) : path.chars ≠ [] := by
  intro hnil
  have := (pathValid_iff.mp h).2.2
  rw [CStr.length, hnil] at this
  cases this

namespace NamesOk

variable {v v' : Vfs} (h : NamesOk v) {i j n : Fin vfsMaxNodes} {path : CStr}

include h

theorem name_iff {q : List Byte} : nodeName v i = some q
    ↔ (v.nodes i).used = true ∧ Spells (v.nodes i).path 0 q := by
  cases hused : (v.nodes i).used with
  | false => simp [nodeName, hused]
  | true =>
    obtain ⟨path, hpath, hspells⟩ := h.valid i hused
    rw [nodeName_eq hused hspells hpath]
    constructor
    · intro hq
      rw [← Option.some.inj hq]
      exact ⟨rfl, hspells⟩
    · rintro ⟨-, hq⟩
      rw [hspells.unique hq]

/-- The name of a node is a valid path. -/
theorem name_valid {q : List Byte} (hi : nodeName v i = some q) :
    ∃ path : CStr, vfsPathValid path = true ∧ path.chars = q := by
  obtain ⟨hused, hspells⟩ := h.name_iff.mp hi
  obtain ⟨path, hpath, hspells'⟩ := h.valid i hused
  exact ⟨path, hpath, hspells'.unique hspells⟩

/-- **`vfs_find` finds the node of the name.** -/
theorem find_iff : vfsFind v path = some i ↔ nodeName v i = some path.chars := by
  have hmatch : ∀ {j}, ((v.nodes j).used && pathEquals (v.nodes j).path 0 path.chars) = true
      ↔ nodeName v j = some path.chars := by
    intro j
    rw [h.name_iff, Bool.and_eq_true, pathEquals_cstr]
  constructor
  · intro hfind
    have hi := List.find?_some hfind
    exact hmatch.mp hi
  · intro hi
    cases hfind : vfsFind v path with
    | none => exact absurd (hmatch.mpr hi) (List.find?_eq_none.mp hfind i (List.mem_finRange i))
    | some j =>
      have hj := List.find?_some hfind
      rw [h.tree.distinct j i _ (hmatch.mp hj) hi]

theorem find_none : vfsFind v path = none ↔ ∀ i, nodeName v i ≠ some path.chars := by
  rw [Option.eq_none_iff_forall_ne_some]
  exact forall_congr' fun i => not_congr h.find_iff

/-- `vfs_parent_exists` is about everything above the path. -/
theorem above (hparent : vfsParentExists v path = true) {p : List Byte} (hp : p ≠ [])
    (hpq : Beneath slash p path.chars) :
    ∃ j, nodeName v j = some p ∧ (v.nodes j).kind = .directory := by
  obtain ⟨-, hafter⟩ := lastSlash_spec 0 0 path.chars
  refine h.tree.above (l := lastSlash 0 0 path.chars) (fun m hm => hafter m (by omega)) ?_ hp hpq
  rw [vfsParentExists] at hparent
  split at hparent
  · exact .inl ‹_›
  · refine .inr ?_
    split at hparent
    · cases hparent
    · rename_i j hfind
      exact ⟨j, h.find_iff.mp hfind, beq_iff_eq.mp hparent⟩

/-- `nodeBeneath`, on names. -/
theorem nodeBeneath_iff : nodeBeneath v n i path = true
    ↔ i ≠ n ∧ ∃ q, nodeName v i = some q ∧ Beneath slash path.chars q := by
  rw [nodeBeneath, Bool.and_eq_true, Bool.and_eq_true, bne_iff_ne]
  constructor
  · rintro ⟨⟨hused, hne⟩, hbeneath⟩
    obtain ⟨q, hq, hspells⟩ := h.valid i hused
    exact ⟨hne, q.chars, nodeName_eq hused hspells hq,
      (pathBeneath_iff path.noNul hspells).mp hbeneath⟩
  · rintro ⟨hne, q, hq, hbeneath⟩
    obtain ⟨hused, hspells⟩ := h.name_iff.mp hq
    exact ⟨⟨hused, hne⟩, (pathBeneath_iff path.noNul hspells).mpr hbeneath⟩

end NamesOk

/-! ## Counting -/

/-- A node comes into use. -/
theorem kindCount_add {v v' : Vfs} {i : Fin vfsMaxNodes} (hi : (v.nodes i).used = false)
    (hi' : (v'.nodes i).used = true) (hother : ∀ j, j ≠ i → v'.nodes j = v.nodes j)
    (kind : NodeKind) :
    kindCount v' kind = kindCount v kind + if (v'.nodes i).kind = kind then 1 else 0 := by
  rw [kindCount, kindCount]
  split
  · rename_i hkind
    rw [← Finset.card_insert_of_notMem (a := i) (by simp [hi])]
    congr 1
    ext j
    rw [Finset.mem_insert, Finset.mem_filter, Finset.mem_filter]
    by_cases hj : j = i
    · subst hj
      simp [hi', hkind]
    · simp [hj, hother j hj]
  · rename_i hkind
    rw [Nat.add_zero]
    congr 1
    ext j
    rw [Finset.mem_filter, Finset.mem_filter]
    by_cases hj : j = i
    · subst hj
      simp [hi, hkind]
    · rw [hother j hj]

theorem kindCount_congr {v v' : Vfs} (h : ∀ i, (v'.nodes i).used = (v.nodes i).used
    ∧ (v'.nodes i).kind = (v.nodes i).kind) (kind : NodeKind) : kindCount v' kind
    = kindCount v kind := by
  rw [kindCount, kindCount]
  congr 1
  ext i
  rw [Finset.mem_filter, Finset.mem_filter, (h i).1, (h i).2]

/-! ## One node more, one less -/

namespace NamesOk

variable {v v' : Vfs} (h : NamesOk v) {i n : Fin vfsMaxNodes} {node : RamfsNode} {path : CStr}

include h

/-- **A node comes into use**, under a new path with its parent there. -/
theorem addNode (hnodes : v'.nodes = Function.update v.nodes i node)
    (hfree : (v.nodes i).used = false) (hpath : vfsPathValid path = true)
    (hnew : vfsFind v path = none) (hparent : vfsParentExists v path = true)
    (hused : node.used = true) (hspells : Spells node.path 0 path.chars)
    (hsize : node.size ≤ vfsMaxFileSize ∧ (node.kind = .directory → node.size = 0))
    (hfiles : v'.fileCount = v.fileCount + (if node.kind = .file then 1 else 0)
      ∧ v'.fileCount ≤ vfsMaxFiles)
    (hdirs : v'.dirCount = v.dirCount + (if node.kind = .directory then 1 else 0)
      ∧ v'.dirCount ≤ vfsMaxDirs) : NamesOk v' := by
  have hi : v'.nodes i = node := by rw [hnodes, Function.update_self]
  have hother : ∀ j, j ≠ i → v'.nodes j = v.nodes j := fun j hj => by
    rw [hnodes, Function.update_of_ne hj]
  have hcount := kindCount_add hfree (hi ▸ hused) hother
  rw [hi] at hcount
  refine ⟨fun j hj => ?_, ?_, ⟨?_, hfiles.2⟩, ⟨?_, hdirs.2⟩, fun j => ?_⟩
  · by_cases hji : j = i
    · subst hji
      rw [hi]
      exact ⟨path, hpath, hspells⟩
    · rw [hother j hji] at hj ⊢
      exact h.valid j hj
  · refine h.tree.insert (h.find_none.mp hnew) (fun r hr hrp => h.above hparent hr hrp)
      (nodeName_none.mpr hfree) (nodeName_eq ?_ ?_ hpath) fun j hj => ⟨?_, ?_⟩
    · rw [hi]
      exact hused
    · rw [hi]
      exact hspells
    · exact nodeName_congr (by rw [hother j hj]) (by rw [hother j hj])
    · rw [hother j hj]
  · rw [hfiles.1, hcount, h.files.1]
  · rw [hdirs.1, hcount, h.dirs.1]
  · by_cases hji : j = i
    · subst hji
      rw [hi]
      exact ⟨hsize.1, fun _ => hsize.2⟩
    · rw [hother j hji]
      exact h.sizes j

/-- **A node goes out of use**, with nothing beneath it. -/
theorem dropNode (hnodes : v'.nodes = Function.update v.nodes n node)
    (hn : nodeName v n = some path.chars) (hused : node.used = false) (hsize : node.size = 0)
    (hbelow : ∀ j q, nodeName v j = some q → ¬ Beneath slash path.chars q)
    (hfiles : v.fileCount = v'.fileCount + if (v.nodes n).kind = .file then 1 else 0)
    (hdirs : v.dirCount = v'.dirCount + if (v.nodes n).kind = .directory then 1 else 0) :
    NamesOk v' := by
  have hn' : v'.nodes n = node := by rw [hnodes, Function.update_self]
  have hother : ∀ j, j ≠ n → v'.nodes j = v.nodes j := fun j hj => by
    rw [hnodes, Function.update_of_ne hj]
  have hfree : (v'.nodes n).used = false := by rw [hn']; exact hused
  have hcount := kindCount_add hfree (h.name_iff.mp hn).1 fun j hj => (hother j hj).symm
  have hf := h.files
  have hd := h.dirs
  rw [hcount] at hf hd
  refine ⟨fun j hj => ?_, ?_, ⟨by omega, by omega⟩, ⟨by omega, by omega⟩, fun j => ?_⟩
  · have hjn : j ≠ n := by
      rintro rfl
      rw [hn', hused] at hj
      cases hj
    rw [hother j hjn] at hj ⊢
    exact h.valid j hj
  · refine h.tree.remove hn hbelow (nodeName_none.mpr (by rw [hn']; exact hused)) fun j hj =>
      ⟨?_, ?_⟩
    · exact nodeName_congr (by rw [hother j hj]) (by rw [hother j hj])
    · rw [hother j hj]
  · by_cases hjn : j = n
    · subst hjn
      rw [hn', hsize]
      exact ⟨Nat.zero_le _, fun _ _ => rfl⟩
    · rw [hother j hjn]
      exact h.sizes j

/-- Nothing but sizes and bytes of files changes. -/
theorem congr (hnodes : ∀ i, (v'.nodes i).used = (v.nodes i).used
      ∧ (v'.nodes i).kind = (v.nodes i).kind ∧ (v'.nodes i).path = (v.nodes i).path)
    (hfiles : v'.fileCount = v.fileCount) (hdirs : v'.dirCount = v.dirCount)
    (hsizes : ∀ i, (v'.nodes i).size = (v.nodes i).size
      ∨ (v.nodes i).kind = .file ∧ (v'.nodes i).size ≤ vfsMaxFileSize) : NamesOk v' := by
  have hname : nodeName v' = nodeName v := funext fun i =>
    nodeName_congr (hnodes i).1 (hnodes i).2.2
  have hcount := kindCount_congr fun i => ⟨(hnodes i).1, (hnodes i).2.1⟩
  refine ⟨fun i hi => ?_, ?_, ?_, ?_, fun i => ?_⟩
  · rw [(hnodes i).1] at hi
    rw [(hnodes i).2.2]
    exact h.valid i hi
  · rw [hname]
    simp only [fun i => (hnodes i).2.1]
    exact h.tree
  · rw [hcount, hfiles]
    exact h.files
  · rw [hcount, hdirs]
    exact h.dirs
  · rw [(hnodes i).1, (hnodes i).2.1]
    rcases hsizes i with hi | ⟨hkind, hi⟩
    · rw [hi]
      exact h.sizes i
    · refine ⟨hi, fun _ hdir => ?_⟩
      cases hkind.symm.trans hdir

end NamesOk

/-! ## Renaming -/

/-- The state a rename leaves. -/
def renamed (v : Vfs) (n : Fin vfsMaxNodes) (old new : CStr) : Vfs :=
  { v with
    nodes := Function.update (renamedNode v n old new) n (vfsSetPath (v.nodes n) new.chars) }

/-- A rename changes paths alone. -/
theorem renamed_node (v : Vfs) (n j : Fin vfsMaxNodes) (old new : CStr) :
    ∃ path, (renamed v n old new).nodes j = { v.nodes j with path := path } := by
  rw [renamed]
  by_cases hj : j = n
  · subst hj
    exact ⟨_, Function.update_self ..⟩
  · dsimp only
    rw [Function.update_of_ne hj, renamedNode]
    split
    · exact ⟨_, rfl⟩
    · exact ⟨_, rfl⟩

/-- A rename writes nothing but paths. -/
theorem renamed_fields (v : Vfs) (n j : Fin vfsMaxNodes) (old new : CStr) :
    ((renamed v n old new).nodes j).used = (v.nodes j).used
      ∧ ((renamed v n old new).nodes j).kind = (v.nodes j).kind
      ∧ ((renamed v n old new).nodes j).size = (v.nodes j).size := by
  obtain ⟨path, heq⟩ := renamed_node v n j old new
  rw [heq]
  exact ⟨rfl, rfl, rfl⟩

namespace NamesOk

variable {v : Vfs} (h : NamesOk v) {n j : Fin vfsMaxNodes} {old : CStr}

include h

/-- What a node beneath the old path is renamed to. -/
theorem renamedNode_spells (new : CStr) (hbeneath : nodeBeneath v n j old = true) : ∃ t : CStr,
    t.chars = pathSuffix (v.nodes j) old.length
      ∧ nodeName v j = some (old.chars ++ t.chars) ∧ t.chars.head? = some slash
      ∧ Spells (renamedNode v n old new j).path 0 (new.append t).chars := by
  obtain ⟨-, q, hq, hold⟩ := h.nodeBeneath_iff.mp hbeneath
  obtain ⟨t, rfl⟩ := hold.exists_eq
  obtain ⟨path, hpath, hchars⟩ := h.name_valid hq
  have hlen := (pathValid_iff.mp hpath).2.1
  rw [CStr.length, hchars, List.length_append] at hlen
  have hnul : 0 ∉ slash :: t := fun hmem =>
    path.noNul (hchars ▸ List.mem_append_right old.chars hmem)
  have hsuffix : pathSuffix (v.nodes j) old.length = slash :: t := by
    have hspells := (h.name_iff.mp hq).2.drop
    rw [Nat.zero_add] at hspells
    exact stringAt_eq hspells (by omega)
  refine ⟨⟨slash :: t, hnul⟩, hsuffix.symm, hq, rfl, ?_⟩
  rw [renamedNode, if_pos hbeneath, hsuffix]
  exact spells_putString (new.append ⟨slash :: t, hnul⟩).noNul

variable {new : CStr} (hn : vfsFind v old = some n) (hnew : vfsPathValid new = true)
  (hshort : ∀ i, nodeBeneath v n i old = true →
    new.length + (pathSuffix (v.nodes i) old.length).length < vfsMaxPath)

include hn hnew hshort

/-- **A rename renames the subtree**, and every path stays valid. -/
theorem renamed_name (j : Fin vfsMaxNodes) :
    ((renamed v n old new).nodes j).used = true → ∃ path : CStr, vfsPathValid path = true
      ∧ Spells ((renamed v n old new).nodes j).path 0 path.chars
      ∧ (nodeName v j).map (rebase slash old.chars new.chars) = some path.chars := by
  intro hused
  have hold := h.find_iff.mp hn
  rw [renamed] at hused ⊢
  dsimp only at hused ⊢
  by_cases hj : j = n
  · subst hj
    rw [Function.update_self]
    refine ⟨new, hnew, spells_putString new.noNul, ?_⟩
    rw [hold, Option.map_some, rebase_self]
  · rw [Function.update_of_ne hj] at hused ⊢
    by_cases hbeneath : nodeBeneath v n j old = true
    · obtain ⟨t, hsuffix, hq, hhead, hspells⟩ := h.renamedNode_spells new hbeneath
      have hlen := hshort j hbeneath
      obtain ⟨hslash, -, htwo⟩ := pathValid_iff.mp hnew
      rw [← hsuffix] at hlen
      refine ⟨new.append t, pathValid_iff.mpr ⟨?_, ?_, ?_⟩, hspells, ?_⟩
      · rw [CStr.append, List.head?_append, hslash]
        rfl
      · rw [CStr.append, CStr.length, List.length_append]
        exact hlen
      · rw [CStr.append, CStr.length, List.length_append]
        exact Nat.lt_add_right _ htwo
      · obtain ⟨c, hc⟩ := List.head?_eq_some_iff.mp hhead
        rw [hq, Option.map_some, hc, rebase_beneath, ← hc]
        rfl
    · have hsame : renamedNode v n old new j = v.nodes j := if_neg hbeneath
      rw [hsame] at hused ⊢
      obtain ⟨q, hq, hspells⟩ := h.valid j hused
      have hname := nodeName_eq hused hspells hq
      refine ⟨q, hq, hspells, ?_⟩
      rw [hname, Option.map_some, rebase_of_not]
      · intro heq
        exact hj (h.tree.distinct j n _ (heq ▸ hname) hold)
      · exact fun hb => hbeneath (h.nodeBeneath_iff.mpr ⟨hj, _, hname, hb⟩)

/-- The names of the renamed nodes. -/
theorem renamed_nodeName : nodeName (renamed v n old new)
    = fun j => (nodeName v j).map (rebase slash old.chars new.chars) := by
  funext j
  cases hused : ((renamed v n old new).nodes j).used with
  | false =>
    rw [nodeName_none.mpr hused, nodeName_none.mpr
      ((renamed_fields v n j old new).1.symm.trans hused)]
    rfl
  | true =>
    obtain ⟨path, hpath, hspells, heq⟩ := h.renamed_name hn hnew hshort j hused
    rw [heq, nodeName_eq hused hspells hpath]

theorem renamed_tree (hfree : vfsFind v new = none) (hparent : vfsParentExists v new = true)
    (hself : ¬ ((v.nodes n).kind = .directory ∧ old.length < new.length
      ∧ new.chars[old.length]? = some slash ∧ new.chars.take old.length = old.chars)) :
    NamesOk (renamed v n old new) := by
  have hold := h.find_iff.mp hn
  obtain ⟨path, hpath, hchars⟩ := h.name_valid hold
  have holdne : old.chars ≠ [] := hchars ▸ vfsPathValid_ne_nil hpath
  have hsame := fun j => renamed_fields v n j old new
  have hcount := kindCount_congr fun j => ⟨(hsame j).1, (hsame j).2.1⟩
  -- the check in the source is for directories; beneath a file there is no parent
  have hbelow : ¬ Beneath slash old.chars new.chars := by
    intro hb
    obtain ⟨hstart, hsep⟩ := beneath_iff.mp hb
    obtain ⟨k, hk, hdir⟩ := h.above hparent holdne hb
    rw [h.tree.distinct k n _ hk hold] at hdir
    exact hself ⟨hdir, hb.length_lt, hsep, (List.prefix_iff_eq_take.mp hstart).symm⟩
  refine ⟨fun j hj => ?_, ?_, ?_, ?_, fun j => ?_⟩
  · obtain ⟨path, hpath, hspells, -⟩ := h.renamed_name hn hnew hshort j hj
    exact ⟨path, hpath, hspells⟩
  · rw [h.renamed_nodeName hn hnew hshort]
    simp only [fun i => (hsame i).2.1]
    exact h.tree.rename (vfsPathValid_ne_nil hnew) (h.find_none.mp hfree) holdne hbelow
      fun r hr hrnew => h.above hparent hr hrnew
  · rw [hcount]
    exact h.files
  · rw [hcount]
    exact h.dirs
  · rw [(hsame j).1, (hsame j).2.1, (hsame j).2.2]
    exact h.sizes j

end NamesOk

/-! ## Steps -/

theorem vfsAllocNode_unused {v : Vfs} {i : Fin vfsMaxNodes} (h : vfsAllocNode v = some i) :
    (v.nodes i).used = false := by
  have hi := List.find?_some h
  simpa using hi

theorem vfsInit_names (v : Vfs) : NamesOk (vfsInit v) := by
  have hcount : ∀ kind, kindCount (vfsInit v) kind = 0 := by
    intro kind
    rw [kindCount, Finset.card_eq_zero, Finset.filter_eq_empty_iff]
    rintro i - ⟨hused, -⟩
    cases hused
  refine ⟨fun i hi => ?_, ⟨fun i j q hi => ?_, fun i q hi => ?_⟩, ⟨?_, Nat.zero_le _⟩,
    ⟨?_, Nat.zero_le _⟩, fun i => ⟨Nat.zero_le _, fun _ _ => rfl⟩⟩
  · cases hi
  · cases (nodeName_none (v := vfsInit v).mpr rfl).symm.trans hi
  · cases (nodeName_none (v := vfsInit v).mpr rfl).symm.trans hi
  · exact (hcount .file).symm
  · exact (hcount .directory).symm

namespace NamesOk

variable {v v' : Vfs} (h : NamesOk v)

include h

theorem mkdir (path : CStr) : NamesOk (vfsMkdir v path).1 := by
  rw [vfsMkdir]
  split
  · exact h
  · rename_i hok
    simp only [Bool.not_eq_true, Bool.or_eq_false_iff, Bool.not_eq_false',
      decide_eq_false_iff_not, Nat.not_le, Option.isSome_eq_false_iff,
      Option.isNone_iff_eq_none] at hok
    obtain ⟨⟨⟨hpath, hnew⟩, hparent⟩, hmax⟩ := hok
    split
    · exact h
    · rename_i i halloc
      exact h.addNode rfl (vfsAllocNode_unused halloc) hpath hnew hparent rfl
        (spells_putString path.noNul) ⟨Nat.zero_le _, fun _ => rfl⟩ ⟨rfl, h.files.2⟩ ⟨rfl, hmax⟩

theorem create (path : CStr) (data : Buffer) (size : ℕ) :
    NamesOk (vfsCreate v path data size).1 := by
  rw [vfsCreate]
  split
  · exact h.congr (fun _ => ⟨rfl, rfl, rfl⟩) rfl rfl fun _ => .inl rfl
  · split
    · exact h
    · rename_i hok
      simp only [Bool.not_eq_true, Bool.or_eq_false_iff, Bool.not_eq_false',
        decide_eq_false_iff_not,
        Nat.not_le, Nat.not_lt, Option.isSome_eq_false_iff, Option.isNone_iff_eq_none] at hok
      obtain ⟨⟨⟨⟨⟨hpath, hsize⟩, -⟩, hnew⟩, hparent⟩, hmax⟩ := hok
      split
      · exact h
      · rename_i i halloc
        exact h.addNode rfl (vfsAllocNode_unused halloc) hpath hnew hparent rfl
          (spells_putString path.noNul) ⟨hsize, fun hdir => by cases hdir⟩ ⟨rfl, hmax⟩
          ⟨rfl, h.dirs.2⟩

/-- A count that is decremented is not zero. -/
theorem decrement_kind {n : Fin vfsMaxNodes} (hused : (v.nodes n).used = true) :
    kindCount v (v.nodes n).kind = decrement (kindCount v (v.nodes n).kind) + 1 := by
  have hpos : 0 < kindCount v (v.nodes n).kind :=
    Finset.card_pos.mpr ⟨n, Finset.mem_filter.mpr ⟨Finset.mem_univ n, hused, rfl⟩⟩
  have hle : kindCount v (v.nodes n).kind ≤ 8 := by
    cases (v.nodes n).kind with
    | file => exact h.files.1 ▸ h.files.2
    | directory => exact h.dirs.1 ▸ h.dirs.2
  rw [decrement]
  omega

theorem remove (path : CStr) : NamesOk (vfsRemove v path).1 := by
  rw [vfsRemove]
  split
  · exact h
  · rename_i n hfind
    have hn := h.find_iff.mp hfind
    have hused := (h.name_iff.mp hn).1
    have hcount := h.decrement_kind hused
    split
    · rename_i hkind
      rw [hkind, ← h.dirs.1] at hcount
      split
      · exact h
      · rename_i hany
        refine h.dropNode rfl hn rfl rfl (fun j q hj hb => hany ?_) ?_ ?_
        · refine List.any_eq_true.mpr
            ⟨j, List.mem_finRange j, h.nodeBeneath_iff.mpr ⟨?_, q, hj, hb⟩⟩
          rintro rfl
          obtain rfl := Option.some.inj (hj.symm.trans hn)
          exact Nat.lt_irrefl _ hb.length_lt
        · rw [if_neg (by rw [hkind]; decide)]
          rfl
        · rw [if_pos hkind]
          exact hcount
    · rename_i hkind
      rw [hkind, ← h.files.1] at hcount
      obtain ⟨q, hq, hchars⟩ := h.name_valid hn
      refine h.dropNode rfl hn rfl rfl (fun j q hj => ?_) ?_ ?_
      · refine h.tree.leaf hn (hchars ▸ vfsPathValid_ne_nil hq) (fun hdir => ?_) hj
        cases hkind.symm.trans hdir
      · rw [if_pos hkind]
        exact hcount
      · rw [if_neg (by rw [hkind]; decide)]
        rfl

theorem rename (old new : CStr) : NamesOk (vfsRename v old new).1 := by
  rw [vfsRename]
  split
  · exact h
  · rename_i n hfind
    split
    · exact h
    · rename_i hok
      simp only [Bool.not_eq_true, Bool.or_eq_false_iff, Bool.not_eq_false',
        Option.isSome_eq_false_iff, Option.isNone_iff_eq_none] at hok
      obtain ⟨⟨hnew, hfree⟩, hparent⟩ := hok
      split
      · exact h
      · rename_i hself
        split
        · exact h
        · rename_i hshort
          refine h.renamed_tree hfind hnew (fun i hi => ?_) hfree hparent hself
          by_contra hlong
          refine hshort (List.any_eq_true.mpr ⟨i, List.mem_finRange i, ?_⟩)
          rw [hi, Bool.true_and, decide_eq_true_eq]
          exact Nat.le_of_not_lt hlong

/-- Bytes and sizes of files: no path, no kind, no use. -/
theorem setFile {path : CStr} {i : Fin vfsMaxNodes} (hi : ramFile v path = some i) (data : ℕ → Byte)
    {size : ℕ} (hsize : size ≤ vfsMaxFileSize) : NamesOk (v.setFile i data size) := by
  obtain ⟨-, hkind, -⟩ := ramFile_spec hi
  refine h.congr (setFile_same v i data size) rfl rfl fun j => ?_
  by_cases hj : j = i
  · subst hj
    rw [setFile_self]
    exact .inr ⟨hkind, hsize⟩
  · exact .inl (by rw [setFile_other v i data size hj])

/-- What touches no node keeps the names. -/
theorem frame (hnodes : v'.nodes = v.nodes) (hfiles : v'.fileCount = v.fileCount)
    (hdirs : v'.dirCount = v.dirCount) : NamesOk v' :=
  h.congr (fun i => hnodes ▸ ⟨rfl, rfl, rfl⟩) hfiles hdirs fun i => .inl (by rw [hnodes])

theorem loads (hv : Loads v v') : NamesOk v' := by
  rcases hv with rfl | ⟨data, rfl⟩
  · exact h
  · exact h.frame rfl rfl rfl

theorem write (path : CStr) (offset : ℕ) (buffer : Buffer) (size : ℕ) :
    NamesOk (vfsWrite v path offset buffer size).1 := by
  cases hd : vfsDiskPath path with
  | some diskPath =>
    have ho := vfsWrite_outcome (v := v) hd offset buffer size
    generalize vfsWrite v path offset buffer size = r at ho ⊢
    cases ho with
    | refused hbad => exact h
    | unread hv hnone => exact h.loads hv
    | edited hserves hc hok hdata hr => exact hr ▸ h.frame rfl rfl rfl
  | none =>
    have ho := vfsWrite_ram (v := v) hd offset buffer size
    generalize vfsWrite v path offset buffer size = r at ho ⊢
    cases ho with
    | refused hbad => exact h
    | @edited i hi hok => exact h.setFile hi _ (Nat.max_le.mpr ⟨hok.2, (h.sizes i).1⟩)

theorem truncate (path : CStr) (size : ℕ) : NamesOk (vfsTruncate v path size).1 := by
  cases hd : vfsDiskPath path with
  | some diskPath =>
    have ho := vfsTruncate_outcome (v := v) hd size
    generalize vfsTruncate v path size = r at ho ⊢
    cases ho with
    | refused hbad => exact h
    | unread hv hnone => exact h.loads hv
    | edited hserves hc hok hdata hr => exact hr ▸ h.frame rfl rfl rfl
  | none =>
    have ho := vfsTruncate_ram (v := v) hd size
    generalize vfsTruncate v path size = r at ho ⊢
    cases ho with
    | refused hbad => exact h
    | edited hi hok => exact h.setFile hi _ hok

theorem step {op : VfsOp} (hstep : vfsStep v op = some v') : NamesOk v' := by
  cases op with
  | mkdir path => exact Option.some.inj hstep ▸ h.mkdir path
  | remove path => exact Option.some.inj hstep ▸ h.remove path
  | rename old new => exact Option.some.inj hstep ▸ h.rename old new
  | create path data size => exact Option.some.inj hstep ▸ h.create path data size
  | write path offset buffer size => exact Option.some.inj hstep ▸ h.write path offset buffer size
  | truncate path size => exact Option.some.inj hstep ▸ h.truncate path size
  | read path offset hasBuffer size =>
    exact Option.some.inj hstep ▸ h.loads (vfsRead_loads v path offset hasBuffer size)
  | fileData path => exact Option.some.inj hstep ▸ h.loads (vfsFileData_loads v path)

end NamesOk

/-! ## The namespace -/

/-- Where a string has its last `/`. -/
def LastSlash (p : List Byte) (l : ℕ) : Prop :=
  p[l]? = some slash ∧ ∀ m, l < m → p[m]? ≠ some slash

/-- What the bytes of the nodes say. -/
structure NamespaceOk (v : Vfs) : Prop where
  /-- Paths are absolute, of 2 to 47 characters and a NUL. -/
  paths : ∀ i, (v.nodes i).used = true →
    ∃ p, Spells (v.nodes i).path 0 p ∧ p.head? = some slash ∧ 2 ≤ p.length ∧ p.length ≤ 47
  distinct : ∀ i j p, (v.nodes i).used = true → (v.nodes j).used = true →
    Spells (v.nodes i).path 0 p → Spells (v.nodes j).path 0 p → i = j
  /-- The parent is there, and a directory. -/
  parents : ∀ i p l, (v.nodes i).used = true → Spells (v.nodes i).path 0 p → LastSlash p l → l ≠ 0 →
    ∃ j, (v.nodes j).used = true ∧ (v.nodes j).kind = .directory
      ∧ Spells (v.nodes j).path 0 (p.take l)
  files : v.fileCount = kindCount v .file ∧ v.fileCount ≤ 8
  dirs : v.dirCount = kindCount v .directory ∧ v.dirCount ≤ 8
  sizes : ∀ i, (v.nodes i).size ≤ 4096
  directories : ∀ i, (v.nodes i).used = true → (v.nodes i).kind = .directory → (v.nodes i).size = 0
  /-- Nothing lies beneath a file. -/
  leaves : ∀ i j p q, (v.nodes i).used = true → (v.nodes i).kind = .file →
    Spells (v.nodes i).path 0 p → (v.nodes j).used = true → Spells (v.nodes j).path 0 q →
    ¬ p ++ [slash] <+: q

theorem NamesOk.namespaceOk {v : Vfs} (h : NamesOk v) : NamespaceOk v where
  paths i hi := by
    obtain ⟨path, hpath, hspells⟩ := h.valid i hi
    obtain ⟨hhead, hmax, hmin⟩ := pathValid_iff.mp hpath
    exact ⟨path.chars, hspells, hhead, hmin, Nat.le_of_lt_succ hmax⟩
  distinct i j p hi hj hp hq :=
    h.tree.distinct i j p (h.name_iff.mpr ⟨hi, hp⟩) (h.name_iff.mpr ⟨hj, hq⟩)
  parents i p l hi hp hlast hl := by
    have hlen : l < p.length := by
      by_contra hge
      cases (List.getElem?_eq_none (Nat.le_of_not_lt hge)).symm.trans hlast.1
    have htake : (p.take l).length = l := List.length_take_of_le hlen.le
    obtain ⟨j, hj, hdir⟩ := h.tree.closed i p (h.name_iff.mpr ⟨hi, hp⟩) (p.take l)
      (List.ne_nil_of_length_pos (by omega))
      (beneath_iff.mpr ⟨List.take_prefix l p, by rw [htake]; exact hlast.1⟩)
    obtain ⟨hused, hspells⟩ := h.name_iff.mp hj
    exact ⟨j, hused, hdir, hspells⟩
  files := h.files
  dirs := h.dirs
  sizes i := (h.sizes i).1
  directories i := (h.sizes i).2
  leaves i j p q hi hkind hp hj hq := by
    obtain ⟨path, hpath, hspells⟩ := h.valid i hi
    have hne : p ≠ [] := hspells.unique hp ▸ vfsPathValid_ne_nil hpath
    refine h.tree.leaf (h.name_iff.mpr ⟨hi, hp⟩) hne (fun hdir => ?_) (h.name_iff.mpr ⟨hj, hq⟩)
    cases hkind.symm.trans hdir

/-- **The paths of RAMFS are a tree**: whatever stood in memory before `vfs_init`, after it and
after every operation the paths of the used nodes are valid and distinct, every parent is a
directory, files have nothing beneath them, and the counts and sizes are right. -/
theorem namespace_kept (v : Vfs) (ops : List VfsOp) : Always vfsStep NamespaceOk (vfsInit v) ops :=
  Always.of_inv (I := NamesOk) (fun _ _ _ h hstep => h.step hstep) (fun _ h => h.namespaceOk)
    (vfsInit_names v) ops

end SaturnOS
