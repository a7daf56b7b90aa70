import SaturnOS.Fs.Failing

/-!
# Fs/Exact — what the calls of RAMFS do to the tree

    rename  /a ─▸ /c/b        /a, /a/x, /a/x/y  ─▸  /c/b, /c/b/x, /c/b/x/y        /ab, /b stay

When `vfs_mkdir`, `vfs_create`, `vfs_remove` and `vfs_rename` succeed, said of the paths of the
nodes in use; what they then change of the nodes, and that they change nothing where they fail.
-/

open Machinery

namespace SaturnOS

/-- A call succeeds exactly where it can, does then what it should, and else changes nothing. -/
structure CallExact (can : Prop) (does : Vfs → Prop) (v : Vfs) (r : Vfs × Bool) : Prop where
  succeeds : r.2 = true ↔ can
  does : r.2 = true → does r.1
  fails : r.2 = false → r.1 = v

namespace CallExact

variable {can : Prop} {does : Vfs → Prop} {v v' : Vfs}

theorem refused (hno : ¬ can) : CallExact can does v (v, false) :=
  ⟨iff_of_false (by simp) hno, fun hok => (by cases hok), fun _ => rfl⟩

theorem done (hcan : can) (hdoes : does v') : CallExact can does v (v', true) :=
  ⟨iff_of_true rfl hcan, fun _ => hdoes, fun hno => (by cases hno)⟩

end CallExact

/-- A node in use has the path. -/
def Named (v : Vfs) (i : Fin vfsMaxNodes) (p : List Byte) : Prop :=
  (v.nodes i).used = true ∧ Spells (v.nodes i).path 0 p

/-- An absolute path of 2 to 47 characters. -/
def ValidPath (p : List Byte) : Prop := p.head? = some slash ∧ 2 ≤ p.length ∧ p.length ≤ 47

/-- The parent of a path is the root or a directory. -/
def ParentIsDir (v : Vfs) (p : List Byte) : Prop :=
  ∀ l, LastSlash p l → l = 0 ∨ ∃ j, Named v j (p.take l) ∧ (v.nodes j).kind = .directory

theorem validPath_iff {path : CStr} : vfsPathValid path = true ↔ ValidPath path.chars :=
  pathValid_iff.trans (and_congr_right fun _ =>
    ⟨fun h => ⟨h.2, Nat.le_of_lt_succ h.1⟩, fun h => ⟨Nat.lt_succ_of_le h.2, h.1⟩⟩)

theorem LastSlash.unique {p : List Byte} {l m : ℕ} (h : LastSlash p l) (h' : LastSlash p m) :
    l = m := by
  rcases Nat.lt_trichotomy l m with hlt | heq | hlt
  · exact absurd h'.1 (h.2 m hlt)
  · exact heq
  · exact absurd h.1 (h'.2 l hlt)

/-- `vfs_parent_exists` finds the last `/`. -/
theorem lastSlash_last {path : CStr} (hhead : path.chars.head? = some slash) :
    LastSlash path.chars (lastSlash 0 0 path.chars) := by
  obtain ⟨hcases, hafter⟩ := lastSlash_spec 0 0 path.chars
  refine ⟨?_, fun m hm => hafter m (by omega)⟩
  rcases hcases with h0 | ⟨m, hm, hslash⟩
  · rw [h0, ← List.head?_eq_getElem?]
    exact hhead
  · rw [hm, Nat.zero_add]
    exact hslash

namespace NamesOk

variable {v : Vfs} (h : NamesOk v) {i j n : Fin vfsMaxNodes} {path old new : CStr}

include h

theorem named_iff {p : List Byte} : Named v i p ↔ nodeName v i = some p := h.name_iff.symm

theorem free_iff : vfsFind v path = none ↔ ∀ j, ¬ Named v j path.chars :=
  h.find_none.trans (forall_congr' fun _ => not_congr h.name_iff)

theorem parent_iff (hpath : ValidPath path.chars) :
    vfsParentExists v path = true ↔ ParentIsDir v path.chars := by
  have hlast := lastSlash_last hpath.1
  simp only [vfsParentExists]
  set last := lastSlash 0 0 path.chars
  constructor
  · intro hparent l hl
    obtain rfl := hlast.unique hl
    split at hparent
    · exact .inl ‹_›
    · split at hparent
      · cases hparent
      · rename_i j hfind
        exact .inr ⟨j, h.named_iff.mpr (h.find_iff.mp hfind), beq_iff_eq.mp hparent⟩
  · intro hparent
    split
    · rfl
    · rename_i h0
      obtain ⟨j, hj, hdir⟩ := (hparent last hlast).resolve_left h0
      have hfind : vfsFind v (path.take last) = some j := h.find_iff.mpr (h.named_iff.mp hj)
      rw [hfind]
      exact beq_iff_eq.mpr hdir

end NamesOk

/-! ## Renaming -/

/-- When a rename succeeds. -/
def CanRename (v : Vfs) (old new : CStr) : Prop :=
  ∃ n, Named v n old.chars ∧ ValidPath new.chars ∧ (∀ j, ¬ Named v j new.chars)
    ∧ ParentIsDir v new.chars
    ∧ ((v.nodes n).kind = .directory → ¬ old.chars ++ [slash] <+: new.chars)
    ∧ ∀ j t, Named v j (old.chars ++ slash :: t) → (new.chars ++ slash :: t).length ≤ 47

/-- …and what it then does: `old` becomes `new` in every path that starts with it, and nothing else
changes. -/
structure PathsRenamed (old new : CStr) (v v' : Vfs) : Prop where
  node : ∀ i, Named v i old.chars → Named v' i new.chars
  beneath : ∀ i t, Named v i (old.chars ++ slash :: t) → Named v' i (new.chars ++ slash :: t)
  other : ∀ i p, Named v i p → p ≠ old.chars → ¬ old.chars ++ [slash] <+: p → Named v' i p
  distinct : ∀ i j p, Named v' i p → Named v' j p → i = j
  contents : ∀ i, ∃ path, v'.nodes i = { v.nodes i with path := path }
  rest : v'.fileCount = v.fileCount ∧ v'.dirCount = v.dirCount
    ∧ v'.diskFileBuffer = v.diskFileBuffer ∧ v'.sfs = v.sfs

section Rename

variable {v : Vfs} (h : NamesOk v) {old new : CStr} {n : Fin vfsMaxNodes}

include h

/-- What follows a path in one beneath it. -/
theorem NamesOk.suffix_of_named {j : Fin vfsMaxNodes} {t : List Byte} (hn : vfsFind v old = some n)
    (hj : Named v j (old.chars ++ slash :: t)) :
    nodeBeneath v n j old = true ∧ pathSuffix (v.nodes j) old.length = slash :: t := by
  have hname := h.named_iff.mp hj
  have hbeneath : nodeBeneath v n j old = true := by
    refine h.nodeBeneath_iff.mpr ⟨?_, _, hname, beneath_cons⟩
    rintro rfl
    have hlen := congrArg List.length (Option.some.inj ((h.find_iff.mp hn).symm.trans hname))
    rw [List.length_append, List.length_cons] at hlen
    omega
  obtain ⟨s, hs, hname', -⟩ := h.renamedNode_spells old hbeneath
  refine ⟨hbeneath, hs.symm.trans ?_⟩
  exact List.append_cancel_left (Option.some.inj (hname'.symm.trans hname))

/-- **The checks are about the paths.** -/
theorem NamesOk.renamePasses_iff (hn : vfsFind v old = some n) : RenamePasses v n old new ↔
    ValidPath new.chars ∧ (∀ j, ¬ Named v j new.chars) ∧ ParentIsDir v new.chars
      ∧ ((v.nodes n).kind = .directory → ¬ old.chars ++ [slash] <+: new.chars)
      ∧ ∀ j t, Named v j (old.chars ++ slash :: t) → (new.chars ++ slash :: t).length ≤ 47 := by
  constructor
  · rintro ⟨hvalid, hfree, hparent, hapart, hshort⟩
    have hpath := validPath_iff.mp hvalid
    refine ⟨hpath, h.free_iff.mp hfree, (h.parent_iff hpath).mp hparent, fun hdir hb => ?_,
      fun j t hj => ?_⟩
    · obtain ⟨hstart, hsep⟩ := beneath_iff.mp hb
      exact hapart ⟨hdir, Beneath.length_lt hb, hsep, (List.prefix_iff_eq_take.mp hstart).symm⟩
    · obtain ⟨hbeneath, hsuffix⟩ := h.suffix_of_named hn hj
      have hlen := hshort j hbeneath
      rw [hsuffix] at hlen
      rw [List.length_append]
      exact Nat.le_of_lt_succ hlen
  · rintro ⟨hpath, hfree, hparent, hapart, hshort⟩
    refine ⟨validPath_iff.mpr hpath, h.free_iff.mpr hfree, (h.parent_iff hpath).mpr hparent, ?_,
      fun j hbeneath => ?_⟩
    · rintro ⟨hdir, -, hsep, htake⟩
      exact hapart hdir (beneath_iff.mpr ⟨htake ▸ List.take_prefix old.length new.chars, hsep⟩)
    · obtain ⟨t, ht, hname, hhead, -⟩ := h.renamedNode_spells new hbeneath
      obtain ⟨u, hu⟩ := List.head?_eq_some_iff.mp hhead
      have hlen := hshort j u (h.named_iff.mpr (hu ▸ hname))
      rw [List.length_append, ← hu, ht] at hlen
      exact Nat.lt_succ_of_le hlen

omit h in
theorem vfsRename_passes (hn : vfsFind v old = some n) (hp : RenamePasses v n old new) :
    vfsRename v old new = (renamed v n old new, true) := by
  obtain ⟨hvalid, hfree, hparent, hapart, hshort⟩ := hp
  have hchecks : ¬ (!vfsPathValid new || (vfsFind v new).isSome || !vfsParentExists v new)
      = true := by
    rw [hvalid, hfree, hparent]
    decide
  have hfits : ¬ ((List.finRange vfsMaxNodes).any fun i => nodeBeneath v n i old
      && decide (vfsMaxPath ≤ new.length + (pathSuffix (v.nodes i) old.length).length)) = true := by
    intro hany
    obtain ⟨i, -, hi⟩ := List.any_eq_true.mp hany
    obtain ⟨hbeneath, hlong⟩ := Bool.and_eq_true_iff.mp hi
    exact absurd (hshort i hbeneath) (Nat.not_lt.mpr (of_decide_eq_true hlong))
  rw [vfsRename, hn]
  dsimp only
  rw [if_neg hchecks, if_neg hapart, if_neg hfits]
  rfl

/-- **When a rename succeeds.** -/
theorem NamesOk.rename_iff : (vfsRename v old new).2 = true ↔ CanRename v old new := by
  constructor
  · intro hok
    rcases vfsRename_outcome v old new with heq | ⟨n, hn, hp, -⟩
    · rw [heq] at hok
      cases hok
    · exact ⟨n, h.named_iff.mpr (h.find_iff.mp hn), (h.renamePasses_iff hn).mp hp⟩
  · rintro ⟨n, hn, hchecks⟩
    have hfind := h.find_iff.mpr (h.named_iff.mp hn)
    rw [vfsRename_passes hfind ((h.renamePasses_iff hfind).mpr hchecks)]

/-- **What a rename does.** -/
theorem NamesOk.pathsRenamed (hn : vfsFind v old = some n) (hp : RenamePasses v n old new) :
    PathsRenamed old new v (renamed v n old new) := by
  have h' := h.renamed_tree hn hp.valid hp.short hp.free hp.parent hp.apart
  have hname : ∀ {i p}, Named v i p → Named (renamed v n old new) i
      (rebase slash old.chars new.chars p) := by
    intro i p hi
    have hrenamed := congrFun (h.renamed_nodeName hn hp.valid hp.short) i
    rw [h.named_iff.mp hi] at hrenamed
    exact h'.named_iff.mpr hrenamed
  refine ⟨fun i hi => ?_, fun i t hi => ?_, fun i p hi hne hnot => ?_, fun i j p hi hj => ?_,
    fun i => renamed_node v n i old new, rfl, rfl, rfl, rfl⟩
  · have hi' := hname hi
    rwa [rebase_self] at hi'
  · have hi' := hname hi
    rwa [rebase_beneath] at hi'
  · have hi' := hname hi
    rwa [rebase_of_not hne hnot] at hi'
  · exact h'.tree.distinct i j p (h'.named_iff.mp hi) (h'.named_iff.mp hj)

end Rename

theorem NamesOk.fsStep {v v' : Vfs} (h : NamesOk v) {op : FsOp}
    (hstep : SaturnOS.fsStep v op = some v') :
    NamesOk v' := by
  cases op with
  | vfs op => exact h.step hstep
  | sfs op =>
    obtain ⟨sfs, -, rfl⟩ := Option.map_eq_some_iff.mp hstep
    exact h.frame rfl rfl rfl

theorem NamesOk.rename_exact {v : Vfs} (h : NamesOk v) (old new : CStr) :
    CallExact (CanRename v old new) (PathsRenamed old new v) v (vfsRename v old new) := by
  have hiff : (vfsRename v old new).2 = true ↔ CanRename v old new := h.rename_iff
  rcases vfsRename_outcome v old new with heq | ⟨n, hn, hp, heq⟩
  · rw [heq] at hiff ⊢
    exact .refused fun hcan => by cases hiff.mpr hcan
  · rw [heq] at hiff ⊢
    exact .done (hiff.mp rfl) (h.pathsRenamed hn hp)

/-- **A rename substitutes a prefix**, in every state of every run after `vfs_init`: it succeeds
exactly where it can, renames the node and what lies beneath it and nothing else, and changes
nothing where it fails. -/
theorem renames_substitute_prefix (v : Vfs) (ops : List FsOp) :
    Always fsStep (fun v => ∀ old new,
      CallExact (CanRename v old new) (PathsRenamed old new v) v (vfsRename v old new))
      (vfsInit v) ops :=
  Always.of_inv (I := NamesOk) (fun _ _ _ h hstep => h.fsStep hstep) (fun _ h => h.rename_exact)
    (vfsInit_names v) ops

/-! ## Creation -/

/-- What the two calls that create a node check alike. -/
def CanAdd (v : Vfs) (path : CStr) : Prop :=
  ValidPath path.chars ∧ (∀ j, ¬ Named v j path.chars) ∧ ParentIsDir v path.chars

/-- A node that was not in use has the path, the kind and the bytes, and nothing else changes. -/
structure NodeAdded (path : CStr) (kind : NodeKind) (bytes : List Byte) (v v' : Vfs)
    (i : Fin vfsMaxNodes) : Prop where
  unused : (v.nodes i).used = false
  named : Named v' i path.chars
  kind_eq : (v'.nodes i).kind = kind
  bytes_eq : (v'.nodes i).bytes = bytes
  other : ∀ j, j ≠ i → v'.nodes j = v.nodes j
  files : v'.fileCount = v.fileCount + if kind = .file then 1 else 0
  dirs : v'.dirCount = v.dirCount + if kind = .directory then 1 else 0
  rest : v'.diskFileBuffer = v.diskFileBuffer ∧ v'.sfs = v.sfs

/-- The nodes in use, in the order of the table. -/
def usedNodes (v : Vfs) : List (Fin vfsMaxNodes) :=
  (List.finRange vfsMaxNodes).filter fun i => (v.nodes i).used

theorem nodup_usedNodes (v : Vfs) : (usedNodes v).Nodup := (List.nodup_finRange _).filter _

theorem mem_usedNodes {v : Vfs} {i : Fin vfsMaxNodes} :
    i ∈ usedNodes v ↔ (v.nodes i).used = true := by
  rw [usedNodes, List.mem_filter]
  exact and_iff_right (List.mem_finRange i)

section Creation

variable {v : Vfs} (h : NamesOk v) {path : CStr}

include h

/-- **The counts are those of the nodes in use.** -/
theorem NamesOk.length_usedNodes : (usedNodes v).length = v.fileCount + v.dirCount := by
  have hset : (usedNodes v).toFinset = Finset.univ.filter fun i => (v.nodes i).used = true := by
    ext i
    rw [List.mem_toFinset, mem_usedNodes, Finset.mem_filter]
    exact (and_iff_right (Finset.mem_univ i)).symm
  have hkinds := Finset.card_filter_add_card_filter_not
    (s := Finset.univ.filter fun i => (v.nodes i).used = true) fun i => (v.nodes i).kind = .file
  have hdir : ∀ i, ¬ (v.nodes i).kind = .file ↔ (v.nodes i).kind = .directory := by
    intro i
    cases (v.nodes i).kind <;> simp
  simp only [hdir] at hkinds
  rw [Finset.filter_filter, Finset.filter_filter] at hkinds
  rw [← List.toFinset_card_of_nodup (nodup_usedNodes v), hset, ← hkinds, h.files.1, h.dirs.1]
  rfl

/-- **There is a node to take** where a count is below its limit. -/
theorem NamesOk.alloc (hroom : v.fileCount < vfsMaxFiles ∨ v.dirCount < vfsMaxDirs) :
    ∃ i, vfsAllocNode v = some i ∧ (v.nodes i).used = false := by
  cases hfind : vfsAllocNode v with
  | some i => exact ⟨i, rfl, vfsAllocNode_unused hfind⟩
  | none =>
    have hall : usedNodes v = List.finRange vfsMaxNodes := by
      refine List.filter_eq_self.mpr fun i hi => ?_
      simpa using List.find?_eq_none.mp hfind i hi
    have hlen := h.length_usedNodes
    rw [hall, List.length_finRange] at hlen
    have hfiles := h.files.2
    have hdirs := h.dirs.2
    simp only [vfsMaxNodes, vfsMaxFiles, vfsMaxDirs] at hroom hfiles hdirs hlen
    omega

/-- The checks of a creation are about the paths. -/
theorem NamesOk.canAdd_iff : CanAdd v path
    ↔ vfsPathValid path = true ∧ vfsFind v path = none ∧ vfsParentExists v path = true := by
  rw [CanAdd, ← validPath_iff, ← h.free_iff]
  exact and_congr_right fun hpath => and_congr_right fun _ =>
    (h.parent_iff (validPath_iff.mp hpath)).symm

omit h in
/-- A node written over one that was not in use. -/
theorem nodeAdded_update {v' : Vfs} {i : Fin vfsMaxNodes} {node : RamfsNode} {kind : NodeKind}
    {bytes : List Byte} (hnodes : v'.nodes = Function.update v.nodes i node)
    (hfree : (v.nodes i).used = false) (hused : node.used = true)
    (hspells : Spells node.path 0 path.chars) (hkind : node.kind = kind)
    (hbytes : node.bytes = bytes)
    (hfiles : v'.fileCount = v.fileCount + if kind = .file then 1 else 0)
    (hdirs : v'.dirCount = v.dirCount + if kind = .directory then 1 else 0)
    (hrest : v'.diskFileBuffer = v.diskFileBuffer ∧ v'.sfs = v.sfs) :
    NodeAdded path kind bytes v v' i := by
  have hi : v'.nodes i = node := by rw [hnodes, Function.update_self]
  refine ⟨hfree, ?_, by rw [hi, hkind], by rw [hi, hbytes], fun j hj => ?_, hfiles, hdirs, hrest⟩
  · rw [Named, hi]
    exact ⟨hused, hspells⟩
  · rw [hnodes, Function.update_of_ne hj]

/-- **`vfs_mkdir`.** -/
theorem NamesOk.mkdir_exact (path : CStr) :
    CallExact (CanAdd v path ∧ kindCount v .directory < 8)
      (fun v' => ∃ i, NodeAdded path .directory [] v v' i) v (vfsMkdir v path) := by
  rw [h.canAdd_iff, ← h.dirs.1, vfsMkdir]
  split
  · rename_i hno
    refine .refused ?_
    rintro ⟨⟨hpath, hfree, hparent⟩, hmax⟩
    have hroom : decide (vfsMaxDirs ≤ v.dirCount) = false := decide_eq_false (Nat.not_le.mpr hmax)
    rw [hpath, hfree, hparent, hroom] at hno
    cases hno
  · rename_i hok
    simp only [Bool.not_eq_true, Bool.or_eq_false_iff, Bool.not_eq_false',
      decide_eq_false_iff_not, Nat.not_le, Option.isSome_eq_false_iff,
      Option.isNone_iff_eq_none] at hok
    obtain ⟨⟨⟨hpath, hfree⟩, hparent⟩, hmax⟩ := hok
    obtain ⟨i, halloc, hunused⟩ := h.alloc (.inr hmax)
    rw [halloc]
    refine .done ⟨⟨hpath, hfree, hparent⟩, hmax⟩
      ⟨i, nodeAdded_update rfl hunused ?_ ?_ ?_ ?_ ?_ ?_ ?_⟩
    · rfl
    · exact spells_putString path.noNul
    · rfl
    · rfl
    · rfl
    · rfl
    · exact ⟨rfl, rfl⟩

/-- **`vfs_create`**, of a path that is not routed to SaturnFS. -/
theorem NamesOk.create_exact (hd : vfsDiskPath path = none) (data : Buffer) (size : ℕ) :
    CallExact (CanAdd v path ∧ kindCount v .file < 8 ∧ size ≤ 4096
    ∧ (0 < size → data.isSome = true))
      (fun v' => ∃ i, NodeAdded path .file (bufferBytes data size) v v' i) v
      (vfsCreate v path data size) := by
  have hbuffer : (size != 0 && data.isNone) = false ↔ (0 < size → data.isSome = true) := by
    rw [Bool.and_eq_false_iff, bne_eq_false_iff_eq, Option.isNone_eq_false_iff, Nat.pos_iff_ne_zero]
    exact or_iff_not_imp_left
  rw [h.canAdd_iff, ← h.files.1, ← hbuffer, vfsCreate, hd]
  dsimp only
  split
  · rename_i hno
    refine .refused ?_
    rintro ⟨⟨hpath, hfree, hparent⟩, hmax, hsize, hdata⟩
    have hroom : decide (vfsMaxFiles ≤ v.fileCount) = false := decide_eq_false (Nat.not_le.mpr hmax)
    have hfits : decide (vfsMaxFileSize < size) = false := decide_eq_false (Nat.not_lt.mpr hsize)
    rw [hpath, hfree, hparent, hroom, hfits, hdata] at hno
    cases hno
  · rename_i hok
    simp only [Bool.not_eq_true, Bool.or_eq_false_iff, Bool.not_eq_false', decide_eq_false_iff_not,
      Nat.not_le, Nat.not_lt, Option.isSome_eq_false_iff, Option.isNone_iff_eq_none] at hok
    obtain ⟨⟨⟨⟨⟨hpath, hsize⟩, hdata⟩, hfree⟩, hparent⟩, hmax⟩ := hok
    obtain ⟨i, halloc, hunused⟩ := h.alloc (.inl hmax)
    rw [halloc]
    refine .done ⟨⟨hpath, hfree, hparent⟩, hmax, hsize, hdata⟩
      ⟨i, nodeAdded_update rfl hunused ?_ ?_ ?_ ?_ ?_ ?_ ?_⟩
    · rfl
    · exact spells_putString path.noNul
    · rfl
    · refine cells_congr fun k hk => ?_
      exact (blit_inside (n := size) hk).trans (congrArg _ (Nat.zero_add k).symm)
    · rfl
    · rfl
    · exact ⟨rfl, rfl⟩

end Creation

/-! ## Removal -/

/-- The path is that of a file, or of a directory with nothing beneath it. -/
def CanRemove (v : Vfs) (path : CStr) : Prop :=
  ∃ n, Named v n path.chars ∧ ((v.nodes n).kind = .file
    ∨ ∀ j q, Named v j q → ¬ path.chars ++ [slash] <+: q)

/-- The node of the path is not in use any more, and nothing else changes. -/
structure NodeRemoved (path : CStr) (v v' : Vfs) (n : Fin vfsMaxNodes) : Prop where
  named : Named v n path.chars
  unused : (v'.nodes n).used = false
  other : ∀ j, j ≠ n → v'.nodes j = v.nodes j
  files : v.fileCount = v'.fileCount + if (v.nodes n).kind = .file then 1 else 0
  dirs : v.dirCount = v'.dirCount + if (v.nodes n).kind = .directory then 1 else 0
  rest : v'.diskFileBuffer = v.diskFileBuffer ∧ v'.sfs = v.sfs

section Removal

variable {v : Vfs} (h : NamesOk v)

include h

/-- **`vfs_remove`.** -/
theorem NamesOk.remove_exact (path : CStr) :
    CallExact (CanRemove v path) (fun v' => ∃ n, NodeRemoved path v v' n) v (vfsRemove v path) := by
  cases hfind : vfsFind v path with
  | none =>
    rw [vfsRemove, hfind]
    refine .refused ?_
    rintro ⟨n, hn, -⟩
    exact h.free_iff.mp hfind n hn
  | some n =>
    have hname := h.find_iff.mp hfind
    have hn := h.named_iff.mpr hname
    have hcount := h.decrement_kind hn.1
    -- of the two nodes in the condition there is only one
    have hsame : ∀ {m}, Named v m path.chars → m = n := fun hm =>
      h.tree.distinct _ n _ (h.named_iff.mp hm) hname
    have hother : ∀ (node : RamfsNode) j, j ≠ n → Function.update v.nodes n node j = v.nodes j :=
      fun _ _ hj => Function.update_of_ne hj _ _
    have hunused : ∀ node : RamfsNode, node.used = false →
        (Function.update v.nodes n node n).used = false := by
      intro node hnode
      rw [Function.update_self]
      exact hnode
    rw [vfsRemove, hfind]
    dsimp only
    split
    · rename_i hkind
      rw [hkind, ← h.dirs.1] at hcount
      split
      · rename_i hany
        refine .refused ?_
        rintro ⟨m, hm, hfile | hnone⟩
        · rw [hsame hm, hkind] at hfile
          cases hfile
        · obtain ⟨j, -, hj⟩ := List.any_eq_true.mp hany
          obtain ⟨-, q, hq, hbeneath⟩ := h.nodeBeneath_iff.mp hj
          exact hnone j q (h.named_iff.mpr hq) hbeneath
      · rename_i hany
        refine .done ⟨n, hn, .inr fun j q hj hbeneath => hany ?_⟩
          ⟨n, hn, hunused _ rfl, hother _, ?_, ?_, rfl, rfl⟩
        · refine List.any_eq_true.mpr ⟨j, List.mem_finRange j, h.nodeBeneath_iff.mpr
            ⟨?_, q, h.named_iff.mp hj, hbeneath⟩⟩
          rintro rfl
          obtain rfl := Option.some.inj ((h.named_iff.mp hj).symm.trans hname)
          exact Nat.lt_irrefl _ (Beneath.length_lt hbeneath)
        · rw [if_neg (by rw [hkind]; decide)]
          rfl
        · rw [if_pos hkind]
          exact hcount
    · rename_i hkind
      rw [hkind, ← h.files.1] at hcount
      refine .done ⟨n, hn, .inl hkind⟩ ⟨n, hn, hunused _ rfl, hother _, ?_, ?_, rfl, rfl⟩
      · rw [if_pos hkind]
        exact hcount
      · rw [if_neg (by rw [hkind]; decide)]
        rfl

end Removal

/-! ## Listing -/

/-- `vfs_list` gives the entry of the node: its whole path, padded, its size and its kind. -/
def Lists (v : Vfs) (index : ℕ) (n : Fin vfsMaxNodes) : Prop :=
  ∃ p, Named v n p ∧ vfsList v index
    = some ⟨p ++ List.replicate (48 - p.length) 0, (v.nodes n).size, (v.nodes n).kind⟩

/-- The listing has each node in use once, and ends. -/
structure ListExact (v : Vfs) : Prop where
  each : ∀ index < v.fileCount + v.dirCount, ∃ n, Lists v index n
  once : ∀ n, (v.nodes n).used = true → ∃! index, index < v.fileCount + v.dirCount ∧ Lists v index n
  ends : ∀ index, v.fileCount + v.dirCount ≤ index → vfsList v index = none

/-- **The loop of `vfs_list` counts the nodes in use.** -/
theorem listedFrom_eq (v : Vfs) {index current : ℕ} (h : current ≤ index)
    (is : List (Fin vfsMaxNodes)) :
    listedFrom v index current is = (is.filter fun i => (v.nodes i).used)[index - current]? := by
  induction is generalizing current with
  | nil => rfl
  | cons i rest ih =>
    rw [listedFrom]
    split
    · rename_i hunused
      rw [ih h, List.filter_cons_of_neg (by simpa using hunused)]
    · rename_i hused
      rw [List.filter_cons_of_pos (by simpa using hused)]
      split
      · rename_i hne
        have hnext : index - current = index - (current + 1) + 1 := by omega
        rw [ih (by omega), hnext, List.getElem?_cons_succ]
      · rename_i heq
        obtain rfl := not_not.mp heq
        rw [Nat.sub_self, List.getElem?_cons_zero]

theorem listedNode_eq (v : Vfs) (index : ℕ) : listedNode v index = (usedNodes v)[index]? :=
  listedFrom_eq v (Nat.zero_le index) _

section Listing

variable {v : Vfs} (h : NamesOk v)

include h

theorem NamesOk.padded {n : Fin vfsMaxNodes} {p : List Byte} (hn : Named v n p) :
    entryPathOf p = p ++ List.replicate (48 - p.length) 0
      ∧ Spells (fun i => (entryPathOf p).getD i 0) 0 p := by
  obtain ⟨path, hpath, hspells⟩ := h.valid n hn.1
  obtain rfl := hspells.unique hn.2
  have hlen : path.chars.length < 48 := (pathValid_iff.mp hpath).2.1
  have htake : path.chars.take (vfsMaxPath - 1) = path.chars :=
    List.take_of_length_le (Nat.le_pred_of_lt hlen)
  refine ⟨?_, spells_entryPathOf path.noNul hlen⟩
  rw [entryPathOf, htake]
  rfl

/-- The entry of an index is that of its node. -/
theorem NamesOk.lists_iff {index : ℕ} {n : Fin vfsMaxNodes} :
    Lists v index n ↔ (usedNodes v)[index]? = some n := by
  have hentry : ∀ {m}, (usedNodes v)[index]? = some m → ∃ p, Named v m p ∧ vfsList v index
      = some ⟨entryPathOf p, (v.nodes m).size, (v.nodes m).kind⟩ := by
    intro m hm
    have hused := mem_usedNodes.mp (List.mem_of_getElem? hm)
    obtain ⟨path, hpath, hspells⟩ := h.valid m hused
    refine ⟨path.chars, ⟨hused, hspells⟩, ?_⟩
    rw [vfsList, listedNode_eq, hm, Option.map_some,
      stringAt_eq hspells (pathValid_iff.mp hpath).2.1.le]
  constructor
  · rintro ⟨p, hp, hlist⟩
    cases hm : (usedNodes v)[index]? with
    | none =>
      rw [vfsList, listedNode_eq, hm] at hlist
      cases hlist
    | some m =>
      -- two entries with one path are of one node
      obtain ⟨q, hq, hlist'⟩ := hentry hm
      obtain ⟨hpad, hspells⟩ := h.padded hp
      rw [← hpad, hlist'] at hlist
      have hpath : entryPathOf q = entryPathOf p := congrArg VfsEntry.path (Option.some.inj hlist)
      have hspells' := (h.padded hq).2
      rw [hpath] at hspells'
      obtain rfl := hspells.unique hspells'
      rw [h.tree.distinct m n p (h.named_iff.mp hq) (h.named_iff.mp hp)]
  · intro hn
    obtain ⟨p, hp, hlist⟩ := hentry hn
    rw [(h.padded hp).1] at hlist
    exact ⟨p, hp, hlist⟩

/-- **`vfs_list`.** -/
theorem NamesOk.listExact : ListExact v := by
  have hlen := h.length_usedNodes
  refine ⟨fun index hi => ?_, fun n hn => ?_, fun index hi => ?_⟩
  · rw [← hlen] at hi
    exact ⟨_, h.lists_iff.mpr (List.getElem?_eq_getElem hi)⟩
  · obtain ⟨index, hi, hindex⟩ := List.getElem_of_mem (mem_usedNodes.mpr hn)
    refine ⟨index, ⟨hlen ▸ hi, h.lists_iff.mpr (hindex ▸ List.getElem?_eq_getElem hi)⟩, ?_⟩
    rintro other ⟨ho, hlists⟩
    have hother := h.lists_iff.mp hlists
    have hhere : (usedNodes v)[index]? = some n := hindex ▸ List.getElem?_eq_getElem hi
    rw [← hlen] at ho
    exact (List.getElem?_inj ho (nodup_usedNodes v)).mp (hother.trans hhere.symm)
  · rw [vfsList, listedNode_eq, List.getElem?_eq_none (hlen ▸ hi)]
    rfl

end Listing

/-- What creation, removal and enumeration promise. -/
structure TreeExact (v : Vfs) : Prop where
  mkdir : ∀ path, CallExact (CanAdd v path ∧ kindCount v .directory < 8)
    (fun v' => ∃ i, NodeAdded path .directory [] v v' i) v (vfsMkdir v path)
  create : ∀ path data size, vfsDiskPath path = none →
    CallExact (CanAdd v path ∧ kindCount v .file < 8 ∧ size ≤ 4096
    ∧ (0 < size → data.isSome = true))
      (fun v' => ∃ i, NodeAdded path .file (bufferBytes data size) v v' i) v
      (vfsCreate v path data size)
  /-- The allocation of a node does not fail: there is one wherever a count is below its limit. -/
  alloc : v.fileCount < vfsMaxFiles ∨ v.dirCount < vfsMaxDirs → (vfsAllocNode v).isSome = true
  remove : ∀ path,
    CallExact (CanRemove v path) (fun v' => ∃ n, NodeRemoved path v v' n) v (vfsRemove v path)
  list : ListExact v

/-- **Creation, removal and enumeration are exact**, in every state of every run after
`vfs_init`. -/
theorem tree_exact (v : Vfs) (ops : List FsOp) : Always fsStep TreeExact (vfsInit v) ops := by
  refine Always.of_inv (I := NamesOk) (fun _ _ _ h hstep => h.fsStep hstep) (fun v h => ?_)
    (vfsInit_names v) ops
  refine ⟨h.mkdir_exact, fun path data size hd => h.create_exact hd data size, fun hroom => ?_,
    h.remove_exact, h.listExact⟩
  obtain ⟨i, hi, -⟩ := h.alloc hroom
  rw [hi]
  rfl

end SaturnOS
