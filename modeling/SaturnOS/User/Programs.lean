import SaturnOS.Fs.Namespace
import SaturnOS.User.Format

/-!
# User/Programs — the programs that come with the kernel

    words, texts ──▸ image ──saturn_exec_file──▸ /bin/user-*.sx      RAMFS, seven of its eight files

`kernel/user/programs.c`: the code arrays, the data blocks and `user_programs_init`.  A RAMFS that
was only added to is the list of what was made (`Made`), and each call of `user_programs_init` is
decided by that list, whatever the nodes held before and whatever the disk does (`programs_made`).
-/

open Machinery

namespace SaturnOS

/-! ## Code and data -/

/-- The bytes of a code array. -/
def codeBytes (code : List (BitVec 32)) : List Byte := code.flatMap fun w => toLe 4 w.toNat

/-- A block of zeros, and the texts copied into it. -/
def dataBlock (size : ℕ) (texts : List (ℕ × CStr)) : List Byte :=
  texts.foldl (fun block t => block.take t.1 ++ t.2.chars ++ block.drop (t.1 + t.2.length))
    (List.replicate size 0)

/-- `user_demo_code`: write the message, exit. -/
def userDemoCode : List (BitVec 32) := [
  0xd2800028, 0xd2800020, 0xd2a00401, 0xd28002e2, 0xd4000001, 0xd2800048, 0xd28000e0, 0xd4000001,
  0xd4200000]

def userDemoMessage : CStr := ⟨ascii "hello from EL0 syscall\n", by decide⟩

/-- `user_fault_code`: a breakpoint. -/
def userFaultCode : List (BitVec 32) := [0xd4200000]

/-- `user_file_code`: open, read, write what was read, close. -/
def userFileCode : List (BitVec 32) := [
  0xd2800088, 0xd2a00400, 0xd2800221, 0xd4000001, 0xaa0003e3, 0xd28000a8, 0xaa0303e0, 0xd2a00401,
  0x91010021, 0xd2800302, 0xd4000001, 0xaa0003e2, 0xd2800028, 0xd2800020, 0xd4000001, 0xd28000c8,
  0xaa0303e0, 0xd4000001, 0xd2800048, 0xd2800000, 0xd4000001, 0xd4200000]

def userFilePath : CStr := ⟨ascii "/disk/syscall.txt", by decide⟩

def userFileMessage : CStr := ⟨ascii "hello from file syscall\n", by decide⟩

/-- `user_file_write_code`: create, write, close. -/
def userFileWriteCode : List (BitVec 32) := [
  0xd28000e8, 0xd2a00400, 0xd2800281, 0xd4000001, 0xaa0003e3, 0xd2800028, 0xaa0303e0, 0xd2a00401,
  0x91010021, 0xd2800222, 0xd4000001, 0xd28000c8, 0xaa0303e0, 0xd4000001, 0xd2800048, 0xd2800000,
  0xd4000001, 0xd4200000]

def userFileWritePath : CStr := ⟨ascii "/disk/user-write.txt", by decide⟩

def userFileWriteMessage : CStr := ⟨ascii "written from EL0\n", by decide⟩

/-- `user_file_seek_code`: open, seek, read, write what was read, close. -/
def userFileSeekCode : List (BitVec 32) := [
  0xd2800088, 0xd2a00400, 0xd2800221, 0xd4000001, 0xaa0003e3, 0xd2800108, 0xaa0303e0, 0xd28000c1,
  0xd4000001, 0xd28000a8, 0xaa0303e0, 0xd2a00401, 0x91010021, 0xd2800242, 0xd4000001, 0xaa0003e2,
  0xd2800028, 0xd2800020, 0xd4000001, 0xd28000c8, 0xaa0303e0, 0xd4000001, 0xd2800048, 0xd2800000,
  0xd4000001, 0xd4200000]

/-- `user_args_code`: write two arguments with a space between. -/
def userArgsCode : List (BitVec 32) := [
  0xf100081f, 0x54000263, 0xaa0103e3, 0xaa0203e4, 0xf9400061, 0xf9400082, 0xd2800028, 0xd2800020,
  0xd4000001, 0xd2800028, 0xd2800020, 0xd2a00401, 0x9101e021, 0xd2800022, 0xd4000001, 0xf9400461,
  0xf9400482, 0xd2800028, 0xd2800020, 0xd4000001, 0xd2800048, 0xd2800000, 0xd4000001, 0xd4200000]

/-- `user_spawn_code`. -/
def userSpawnCode : List (BitVec 32) := [
  0xd2800308, 0xd2a00400, 0x91020000, 0xd2800281, 0xd28000a2, 0xd4000001,
  0xd2800088, 0xd2a00400, 0x91020000, 0xd2800281, 0xd4000001,
  0xd2800328, 0xd4000001,
  0xd28000c8, 0xd4000001,
  0xd28000c8, 0xd2800060, 0xd4000001,
  0xd28002e8, 0xd2a00400, 0x91020000, 0xd2800281, 0xd2a00402, 0x91020042, 0xd4000001,
  0xd2800208, 0xd2a00400, 0x91020000, 0xd4000001,
  0xd2800228, 0xd4000001,
  0xd2800248, 0xd2800000, 0xd2a00401, 0x91020021, 0xd4000001,
  0xd2800288, 0xd2a00400, 0x91018000, 0xd2800121, 0xd4000001,
  0xd28002c8, 0xd2a00400, 0x91018000, 0xd2800121, 0xd2a00402, 0x9101b042, 0xd2800103, 0xd4000001,
  0xd28002e8, 0xd2a00400, 0x9101b000, 0xd2800101, 0xd2a00402, 0x91020042, 0xd4000001,
  0xd2800268, 0xd2800000, 0xd2a00401, 0x91020021, 0xd4000001,
  0xd28002a8, 0xd2a00400, 0x9101b000, 0xd2800101, 0xd4000001,
  0xd28001c8, 0xd4000001, 0xd28001e8, 0xd4000001, 0xd28001a8, 0xd4000001,
  0xd2800148, 0xd2a00400, 0xd2800221, 0xd2a00402, 0x91008042, 0xd2800143, 0xd4000001,
  0xd2800188, 0xd2800280, 0xd4000001, 0xd28001a8, 0xd4000001,
  0xd2800128, 0xd2800000, 0xd2a00401, 0x9100c021, 0xd2800002, 0xd4000001,
  0xf100041f, 0x540000e1,
  0xd2800028, 0xd2800020, 0xd2a00401, 0x91014021, 0xd2800102, 0xd4000001,
  0xd2800048, 0xd2800000, 0xd4000001, 0xd4200000]

def userSpawnPath : CStr := ⟨ascii "/bin/user-args.sx", by decide⟩
def userSpawnArguments : CStr := ⟨ascii "child args", by decide⟩
def userSpawnWaitMessage : CStr := ⟨ascii "wait ok\n", by decide⟩
def userSpawnDirectory : CStr := ⟨ascii "/user-dir", by decide⟩
def userSpawnRenamedDirectory : CStr := ⟨ascii "/renamed", by decide⟩
def userSpawnTruncatePath : CStr := ⟨ascii "/share/user-demo.txt", by decide⟩

/-! ## Images -/

/-- An image of a code array and a data block, entered at its first instruction. -/
def programImage (code : List (BitVec 32)) (data : List Byte) : SaturnExecImage :=
  { code := codeBytes code, data := data, entryOffset := 0 }

/-- The images, each its code and its data. -/
def userDemoImage : SaturnExecImage := programImage userDemoCode userDemoMessage.chars

def userFaultImage : SaturnExecImage := programImage userFaultCode []

def userFileImage : SaturnExecImage :=
  programImage userFileCode (dataBlock 128 [(0, userFilePath)])

def userFileWriteImage : SaturnExecImage :=
  programImage userFileWriteCode
    (dataBlock 128 [(0, userFileWritePath), (64, userFileWriteMessage)])

def userFileSeekImage : SaturnExecImage :=
  programImage userFileSeekCode (dataBlock 128 [(0, userFilePath)])

def userArgsImage : SaturnExecImage :=
  programImage userArgsCode (dataBlock 128 [(120, ⟨ascii " ", by decide⟩)])

def userSpawnImage : SaturnExecImage :=
  programImage userSpawnCode (dataBlock 160
    [(0, userSpawnPath), (32, userSpawnArguments), (80, userSpawnWaitMessage),
      (96, userSpawnDirectory), (108, userSpawnRenamedDirectory), (128, userSpawnTruncatePath)])

/-- The images, under the paths they are made at. -/
def userPrograms : List (CStr × SaturnExecImage) := [
  (⟨ascii "/bin/user-demo.sx", by decide⟩, userDemoImage),
  (⟨ascii "/bin/user-fault.sx", by decide⟩, userFaultImage),
  (⟨ascii "/bin/user-file.sx", by decide⟩, userFileImage),
  (⟨ascii "/bin/user-file-write.sx", by decide⟩, userFileWriteImage),
  (⟨ascii "/bin/user-file-seek.sx", by decide⟩, userFileSeekImage),
  (⟨ascii "/bin/user-args.sx", by decide⟩, userArgsImage),
  (⟨ascii "/bin/user-spawn.sx", by decide⟩, userSpawnImage)]

/-- **Every program can be loaded.** -/
theorem userPrograms_ok : ∀ program ∈ userPrograms, ImageOk program.2 := by
  have hok : ∀ program ∈ userPrograms, 1 ≤ program.2.code.length ∧ program.2.code.length ≤ 4096
      ∧ program.2.data.length ≤ 4096 ∧ program.2.entryOffset < program.2.code.length
      ∧ program.2.entryOffset % 4 = 0 := by decide +kernel
  intro program hmem
  obtain ⟨hsome, hcode, hdata, hentry, haligned⟩ := hok program hmem
  exact ⟨hsome, hcode, hdata, hentry, haligned⟩

/-! ## Making files -/

/-- A directory or a file to make. -/
structure NodePlan where
  path : CStr
  kind : NodeKind
  bytes : List Byte := []

/-- `vfs_mkdir` or `vfs_create`. -/
def NodePlan.make (plan : NodePlan) (v : Vfs) : Vfs × Bool :=
  match plan.kind with
  | .directory => vfsMkdir v plan.path
  | .file => vfsCreate v plan.path (listBuffer plan.bytes) plan.bytes.length

/-- One after the other, while they succeed. -/
def makeAll : List NodePlan → Vfs → Vfs × Bool
  | [], v => (v, true)
  | plan :: plans, v =>
    match plan.make v with
    | (v, false) => (v, false)
    | (v, true) => makeAll plans v

/-- The nodes of `user_programs_init`, in the order in which it makes them. -/
def programPlans : List NodePlan :=
  [{ path := ⟨ascii "/bin", by decide⟩, kind := .directory },
    { path := ⟨ascii "/share", by decide⟩, kind := .directory }]
  ++ userPrograms.map (fun program =>
    { path := program.1, kind := .file, bytes := saturnExecFile program.2 })
  ++ [{ path := userSpawnTruncatePath, kind := .file, bytes := userDemoMessage.chars }]

/-- What is put on the disk, where there is one. -/
def diskPlans : List NodePlan := [
  { path := ⟨ascii "/disk/bin/user-demo.sx", by decide⟩
    kind := .file
    bytes := saturnExecFile userDemoImage },
  { path := ⟨ascii "/disk/bin/user-fault.sx", by decide⟩
    kind := .file
    bytes := saturnExecFile userFaultImage },
  { path := userFilePath, kind := .file, bytes := userFileMessage.chars }]

/-- `user_programs_init`; whether the files on the disk are made is not asked. -/
def userProgramsInit (v : Vfs) : Vfs × Bool :=
  match makeAll programPlans v with
  | (v, false) => (v, false)
  | (v, true) => (diskPlans.foldl (fun v plan => (plan.make v).1) v, true)

/-! ## A list of nodes -/

/-- A used node that is as planned. -/
structure NodePlan.Is (plan : NodePlan) (node : RamfsNode) : Prop where
  used : node.used = true
  kind : node.kind = plan.kind
  path : Spells node.path 0 plan.path.chars
  bytes : node.bytes = plan.bytes

/-- How many of them are of a kind. -/
def plansOf (plans : List NodePlan) (kind : NodeKind) : ℕ :=
  (plans.filter (·.kind = kind)).length

theorem plansOf_one (plan : NodePlan) (kind : NodeKind) :
    plansOf [plan] kind = if plan.kind = kind then 1 else 0 := by
  rw [plansOf, List.filter_singleton]
  split <;> simp_all

/-- The first nodes are those of a list, in their order, and the others are free. -/
structure Made (v : Vfs) (plans : List NodePlan) : Prop where
  is : ∀ i : Fin vfsMaxNodes, ∀ plan, plans[i.val]? = some plan → plan.Is (v.nodes i)
  free : ∀ i : Fin vfsMaxNodes, plans.length ≤ i.val → (v.nodes i).used = false
  files : v.fileCount = plansOf plans .file
  dirs : v.dirCount = plansOf plans .directory

/-- The place of a path in a list. -/
def planAt (plans : List NodePlan) (path : CStr) : Option (Fin vfsMaxNodes) :=
  (List.finRange vfsMaxNodes).find? fun i => plans[i.val]?.any (·.path.chars == path.chars)

/-- The parent of a path is at the root or a directory in the list. -/
def parentPlanned (plans : List NodePlan) (path : CStr) : Bool :=
  let last := lastSlash 0 0 path.chars
  last == 0 || (planAt plans (path.take last)).any fun i =>
    plans[i.val]?.any (·.kind == .directory)

/-- A node that can be made after those of a list. -/
def NodePlan.Fits (plans : List NodePlan) (plan : NodePlan) : Prop :=
  vfsDiskPath plan.path = none ∧ vfsPathValid plan.path = true ∧ planAt plans plan.path = none
    ∧ parentPlanned plans plan.path = true ∧ plans.length < vfsMaxNodes
    ∧ plansOf plans .file < vfsMaxFiles ∧ plansOf plans .directory < vfsMaxDirs

instance (plans : List NodePlan) (plan : NodePlan) : Decidable (plan.Fits plans) :=
  inferInstanceAs (Decidable (_ ∧ _))

namespace Made

variable {v v' : Vfs} {plans : List NodePlan} {plan : NodePlan} (h : Made v plans)

include h

/-- **Nodes are taken in order**, so a plan's node is the one of its number. -/
theorem used_iff (i : Fin vfsMaxNodes) : (v.nodes i).used = true ↔ i.val < plans.length := by
  constructor
  · intro hused
    by_contra hge
    rw [h.free i (Nat.not_lt.mp hge)] at hused
    cases hused
  · intro hlt
    exact (h.is i _ (List.getElem?_eq_getElem hlt)).used

/-- The search of a path looks it up in the list. -/
theorem find_eq (path : CStr) : vfsFind v path = planAt plans path := by
  rw [vfsFind, planAt]
  congr 1
  funext i
  cases hplan : plans[i.val]? with
  | none =>
    rw [h.free i (List.getElem?_eq_none_iff.mp hplan)]
    rfl
  | some plan =>
    have his := h.is i plan hplan
    rw [his.used, Bool.true_and, Option.any_some, Bool.eq_iff_iff, pathEquals_cstr path,
      beq_iff_eq]
    constructor
    · exact fun hspells => (hspells.unique his.path).symm
    · exact fun heq => heq ▸ his.path

/-- A parent is looked for among the plans… -/
theorem parent_eq (path : CStr) : vfsParentExists v path = parentPlanned plans path := by
  rw [vfsParentExists, parentPlanned]
  by_cases hroot : lastSlash 0 0 path.chars = 0
  · rw [if_pos hroot, hroot]
    rfl
  · rw [if_neg hroot, h.find_eq, beq_false_of_ne hroot, Bool.false_or]
    cases hfind : planAt plans (path.take (lastSlash 0 0 path.chars)) with
    | none => rfl
    | some i =>
      have hany := List.find?_some hfind
      cases hplan : plans[i.val]? with
      | none =>
        rw [hplan] at hany
        cases hany
      | some plan =>
        rw [Option.any_some, hplan, Option.any_some]
        exact congrArg (· == NodeKind.directory) (h.is i plan hplan).kind

/-- …and the next node is the first that none of them has. -/
theorem alloc_eq (hroom : plans.length < vfsMaxNodes) :
    vfsAllocNode v = some ⟨plans.length, hroom⟩ := by
  rw [vfsAllocNode, List.find?_eq_some_iff_getElem]
  refine ⟨by rw [h.free _ le_rfl]; rfl, plans.length, by rwa [List.length_finRange], ?_,
    fun j hj => ?_⟩
  · rw [List.getElem_finRange]
    rfl
  · rw [List.getElem_finRange, (h.used_iff _).mpr (by exact hj)]
    decide

/-- A node put behind the others. -/
theorem append {node : RamfsNode} (hroom : plans.length < vfsMaxNodes) (his : plan.Is node)
    (hnodes : v'.nodes = Function.update v.nodes ⟨plans.length, hroom⟩ node)
    (hfiles : v'.fileCount = v.fileCount + plansOf [plan] .file)
    (hdirs : v'.dirCount = v.dirCount + plansOf [plan] .directory) :
    Made v' (plans ++ [plan]) where
  is i q hq := by
    rcases Nat.lt_trichotomy i.val plans.length with hlt | heq | hgt
    · rw [hnodes, Function.update_of_ne (fun hi => by rw [hi] at hlt; exact lt_irrefl _ hlt)]
      rw [List.getElem?_append_left hlt] at hq
      exact h.is i q hq
    · obtain rfl : i = ⟨plans.length, hroom⟩ := Fin.ext heq
      rw [List.getElem?_append_right le_rfl, Nat.sub_self] at hq
      rw [hnodes, Function.update_self, ← Option.some.inj hq]
      exact his
    · rw [List.getElem?_eq_none (by rw [List.length_append, List.length_singleton]; exact hgt)]
        at hq
      cases hq
  free i hi := by
    rw [List.length_append, List.length_singleton] at hi
    rw [hnodes, Function.update_of_ne (fun heq => by rw [heq] at hi; exact Nat.lt_irrefl _ hi)]
    exact h.free i (Nat.le_of_succ_le hi)
  files := by
    rw [hfiles, h.files, plansOf, plansOf, plansOf, List.filter_append, List.length_append]
  dirs := by
    rw [hdirs, h.dirs, plansOf, plansOf, plansOf, List.filter_append, List.length_append]

/-- **A node that fits is made**, behind the others. -/
theorem make (hfits : plan.Fits plans) (hsize : plan.bytes.length ≤ vfsMaxFileSize)
    (hdir : plan.kind = .directory → plan.bytes = []) :
    (plan.make v).2 = true ∧ Made (plan.make v).1 (plans ++ [plan]) := by
  obtain ⟨hdisk, hvalid, hnew, hparent, hroom, hfiles, hdirs⟩ := hfits
  rw [NodePlan.make]
  cases hkind : plan.kind with
  | directory =>
    dsimp only
    rw [vfsMkdir, hvalid, h.find_eq, hnew, h.parent_eq, hparent, h.dirs,
      decide_eq_false (Nat.not_le.mpr hdirs), if_neg (by decide), h.alloc_eq hroom]
    refine ⟨rfl, h.append hroom ⟨rfl, hkind.symm, spells_putString plan.path.noNul, ?_⟩ rfl ?_ ?_⟩
    · rw [hdir hkind]
      rfl
    · rw [plansOf_one, hkind]
      rfl
    · rw [plansOf_one, hkind, h.dirs]
      rfl
  | file =>
    dsimp only
    rw [vfsCreate, hdisk]
    dsimp only
    rw [hvalid, h.find_eq, hnew, h.parent_eq, hparent, h.files,
      decide_eq_false (Nat.not_le.mpr hfiles), decide_eq_false (Nat.not_lt.mpr hsize),
      show (listBuffer plan.bytes).isNone = false from rfl, Bool.and_false, if_neg (by decide),
      h.alloc_eq hroom]
    refine ⟨rfl, h.append hroom ⟨rfl, hkind.symm, spells_putString plan.path.noNul, ?_⟩ rfl ?_ ?_⟩
    · show cells (blit (v.nodes _).data 0 (fun i => plan.bytes.getD i 0) plan.bytes.length) 0
        plan.bytes.length = plan.bytes
      refine cells_eq rfl fun i hi => ?_
      rw [blit_inside hi, List.getElem?_eq_getElem hi]
      exact congrArg some (List.getD_eq_getElem _ _ hi).symm
    · rw [plansOf_one, hkind, h.files]
      rfl
    · rw [plansOf_one, hkind]
      rfl

/-- A file that was made reads back. -/
theorem contents {path : CStr} (hdisk : vfsDiskPath path = none) {i : Fin vfsMaxNodes}
    (hat : planAt plans path = some i) (hplan : plans[i.val]? = some plan)
    (hkind : plan.kind = .file) : v.contents path = some plan.bytes := by
  have his := h.is i plan hplan
  have hram : ramFile v path = some i := by
    rw [ramFile, h.find_eq, hat, Option.filter_some, if_pos]
    rw [his.kind, hkind]
    rfl
  rw [contents_ram hdisk, hram, Option.map_some, his.bytes]

/-- The list says nothing of the disk. -/
theorem congr (hnodes : v'.nodes = v.nodes) (hfiles : v'.fileCount = v.fileCount)
    (hdirs : v'.dirCount = v.dirCount) : Made v' plans where
  is i plan hplan := hnodes ▸ h.is i plan hplan
  free i hi := hnodes ▸ h.free i hi
  files := hfiles.trans h.files
  dirs := hdirs.trans h.dirs

end Made

/-! ## Making a list -/

/-- Before the first plan no node is used. -/
theorem made_init (v : Vfs) : Made (vfsInit v) [] :=
  ⟨nofun, fun _ _ => rfl, rfl, rfl⟩

/-- Each of a list fits behind those before it. -/
def AllFit : List NodePlan → List NodePlan → Prop
  | _, [] => True
  | plans, plan :: rest => plan.Fits plans ∧ AllFit (plans ++ [plan]) rest

instance decidableAllFit : ∀ plans rest, Decidable (AllFit plans rest)
  | _, [] => .isTrue trivial
  | plans, plan :: rest =>
    have := decidableAllFit (plans ++ [plan]) rest
    inferInstanceAs (Decidable (plan.Fits plans ∧ AllFit (plans ++ [plan]) rest))

/-- **A list that fits is made**, to the end. -/
theorem Made.makeAll {rest plans : List NodePlan} {v : Vfs} (h : Made v plans)
    (hfit : AllFit plans rest)
    (hok : ∀ plan ∈ rest, plan.bytes.length ≤ vfsMaxFileSize
      ∧ (plan.kind = .directory → plan.bytes = [])) :
    (SaturnOS.makeAll rest v).2 = true ∧ Made (SaturnOS.makeAll rest v).1 (plans ++ rest) := by
  induction rest generalizing plans v with
  | nil =>
    rw [List.append_nil]
    exact ⟨rfl, h⟩
  | cons plan rest ih =>
    obtain ⟨hsize, hdir⟩ := hok plan List.mem_cons_self
    obtain ⟨hmade, hnext⟩ := h.make hfit.1 hsize hdir
    rw [SaturnOS.makeAll]
    generalize plan.make v = r at hmade hnext ⊢
    obtain ⟨v', made⟩ := r
    obtain rfl : made = true := hmade
    rw [List.append_cons]
    exact ih hnext hfit.2 fun plan' hmem => hok plan' (List.mem_cons_of_mem plan hmem)

/-- A file made on the disk is no node. -/
theorem Made.makeDisk {plans : List NodePlan} {v : Vfs} (h : Made v plans) {plan : NodePlan}
    (hkind : plan.kind = .file) (hdisk : (vfsDiskPath plan.path).isSome = true) :
    Made (plan.make v).1 plans := by
  obtain ⟨diskPath, hd⟩ := Option.isSome_iff_exists.mp hdisk
  rw [NodePlan.make, hkind]
  dsimp only
  rw [vfsCreate, hd]
  exact h.congr rfl rfl rfl

/-! ## The programs -/

/-- **Every plan fits behind those before it**: its path is new, its parent is there, and its count
is not full. -/
theorem programPlans_fit : AllFit [] programPlans := by decide +kernel

/-- No file is too large… -/
theorem programPlans_sizes : ∀ plan ∈ programPlans, plan.bytes.length ≤ vfsMaxFileSize
    ∧ (plan.kind = .directory → plan.bytes = []) := by decide +kernel

/-- …no path is too long… -/
theorem programPlans_valid : ∀ plan ∈ programPlans, vfsPathValid plan.path = true := by
  decide +kernel

/-- …and those on the disk are files. -/
theorem diskPlans_disk : ∀ plan ∈ diskPlans, plan.kind = .file
    ∧ (vfsDiskPath plan.path).isSome = true := by decide +kernel

/-- **`user_programs_init` after `vfs_init`** makes its directories and files, and no others. -/
theorem userProgramsInit_made (v : Vfs) : (userProgramsInit (vfsInit v)).2 = true
    ∧ Made (userProgramsInit (vfsInit v)).1 programPlans := by
  have hdisks : ∀ plans : List NodePlan, (∀ plan ∈ plans, plan.kind = .file
      ∧ (vfsDiskPath plan.path).isSome = true) → ∀ v, Made v programPlans →
      Made (plans.foldl (fun v plan => (plan.make v).1) v) programPlans := by
    intro plans
    induction plans with
    | nil => exact fun _ _ h => h
    | cons plan plans ih =>
      intro hall v h
      obtain ⟨hkind, hdisk⟩ := hall plan List.mem_cons_self
      exact ih (fun plan' hmem => hall plan' (List.mem_cons_of_mem plan hmem)) _
        (h.makeDisk hkind hdisk)
  obtain ⟨hmade, hnodes⟩ := (made_init v).makeAll programPlans_fit programPlans_sizes
  rw [userProgramsInit]
  generalize makeAll programPlans (vfsInit v) = r at hmade hnodes ⊢
  obtain ⟨v', made⟩ := r
  obtain rfl : made = true := hmade
  exact ⟨rfl, hdisks diskPlans diskPlans_disk v' hnodes⟩

/-- Each program has its place in the list. -/
theorem userPrograms_placed : ∀ program ∈ userPrograms, vfsDiskPath program.1 = none
    ∧ ∃ i : Fin vfsMaxNodes, planAt programPlans program.1 = some i
      ∧ programPlans[i.val]?.any (fun plan => decide (plan.kind = .file
        ∧ plan.bytes = saturnExecFile program.2)) = true := by decide +kernel

/-- **The programs are there.**  Whatever the nodes held and whatever the disk does, RAMFS has the
directories and files of `user_programs_init` and no others; each program reads back and passes
`saturn_exec_parse`; and its last file node is taken. -/
theorem programs_made (v : Vfs) :
    (userProgramsInit (vfsInit v)).2 = true
      ∧ (∀ i, nodeName (userProgramsInit (vfsInit v)).1 i
        = programPlans[i.val]?.map (·.path.chars))
      ∧ (∀ program ∈ userPrograms,
        (userProgramsInit (vfsInit v)).1.contents program.1 = some (saturnExecFile program.2)
          ∧ saturnExecParse (vfsFileData (userProgramsInit (vfsInit v)).1 program.1).2
            = some program.2)
      ∧ ∀ path data size, vfsDiskPath path = none →
        vfsCreate (userProgramsInit (vfsInit v)).1 path data size
          = ((userProgramsInit (vfsInit v)).1, false) := by
  obtain ⟨hmade, h⟩ := userProgramsInit_made v
  generalize (userProgramsInit (vfsInit v)).1 = v' at h ⊢
  refine ⟨hmade, fun i => ?_, fun program hmem => ?_, fun path data size hdisk => ?_⟩
  · cases hplan : programPlans[i.val]? with
    | none => exact nodeName_none.mpr (h.free i (List.getElem?_eq_none_iff.mp hplan))
    | some plan =>
      have his := h.is i plan hplan
      exact nodeName_eq his.used his.path
        (programPlans_valid plan (List.mem_of_getElem? hplan))
  · obtain ⟨hdisk, i, hat, hany⟩ := userPrograms_placed program hmem
    cases hplan : programPlans[i.val]? with
    | none =>
      rw [hplan] at hany
      cases hany
    | some plan =>
    rw [hplan] at hany
    obtain ⟨hkind, hbytes⟩ := of_decide_eq_true hany
    have hcontents := h.contents hdisk hat hplan hkind
    rw [hbytes] at hcontents
    refine ⟨hcontents, ?_⟩
    have hdata : (vfsFileData v' program.1).2 = v'.contents program.1 := by
      rw [vfsFileData, hdisk, contents_ram hdisk]
      rfl
    rw [hdata, hcontents]
    exact parse_file (userPrograms_ok program hmem)
  · -- eight files: `file_count` is at its bound
    have hfull : decide (vfsMaxFiles ≤ v'.fileCount) = true := by
      rw [h.files]
      decide +kernel
    rw [vfsCreate, hdisk]
    dsimp only
    rw [hfull, Bool.or_true, if_pos rfl]

end SaturnOS
