import SaturnOS.Fs.Sfs

/-!
# Fs/Vfs — RAMFS, and SaturnFS under `/disk`

    "/disk/…"  ──▸  sfs.c, through disk_file_buffer
    else       ──▸  nodes[16] : path, size, data, kind, used

`vfs.c`.  The nodes are a flat array; the tree is in their paths alone.  A function returns the
state after it with its result, `none` where the source returns −1 or a null pointer.  A path routed
to SaturnFS may be that of a node as well, and the functions that do not route (`mkdir`, `remove`,
`rename`) work on the node.
-/

open Machinery

namespace SaturnOS

/-- There are as many nodes as files and directories together, so a node is free while a count
allows another. -/
def vfsMaxFiles : ℕ := 8
def vfsMaxDirs : ℕ := 8
def vfsMaxNodes : ℕ := vfsMaxFiles + vfsMaxDirs
def vfsMaxPath : ℕ := 48
def vfsMaxFileSize : ℕ := 4096

/-- `enum ramfs_node_kind`. -/
inductive NodeKind
  | file
  | directory
  deriving DecidableEq

/-- `struct ramfs_node`: the path is the whole path, NUL-terminated. -/
structure RamfsNode where
  path : ℕ → Byte
  size : ℕ
  data : ℕ → Byte
  kind : NodeKind
  used : Bool

/-- The statics of `vfs.c`, and SaturnFS. -/
structure Vfs where
  nodes : Fin vfsMaxNodes → RamfsNode
  fileCount : ℕ
  dirCount : ℕ
  diskFileBuffer : ℕ → Byte
  sfs : Sfs

/-! ## Paths -/

/-- `"/disk"`. -/
def diskMount : List Byte := [slash, 0x64, 0x69, 0x73, 0x6B]

/-- The path in SaturnFS, of a path routed there. -/
def vfsDiskPath (path : CStr) : Option CStr :=
  if diskMount <+: path.chars ∧ path.chars[diskMount.length]? = some slash
      ∧ diskMount.length + 1 < path.length then
    some (path.drop diskMount.length)
  else none

/-- `vfs_path_valid`. -/
def vfsPathValid (path : CStr) : Bool := pathValid vfsMaxPath path

/-- `vfs_find`: the first used node with this path. -/
def vfsFind (v : Vfs) (path : CStr) : Option (Fin vfsMaxNodes) :=
  (List.finRange vfsMaxNodes).find? fun i =>
    (v.nodes i).used && pathEquals (v.nodes i).path 0 path.chars

/-- The loop of `vfs_parent_exists` over the path, `length` characters in. -/
def lastSlash : ℕ → ℕ → List Byte → ℕ
  | _, last, [] => last
  | length, last, c :: s => lastSlash (length + 1) (if c = slash then length else last) s

/-- `vfs_parent_exists`: the part before the last slash is a directory, or empty. -/
def vfsParentExists (v : Vfs) (path : CStr) : Bool :=
  let last := lastSlash 0 0 path.chars
  if last = 0 then true
  else
    match vfsFind v (path.take last) with
    | none => false
    | some i => (v.nodes i).kind == .directory

/-- `vfs_alloc_node`: the first node that is free. -/
def vfsAllocNode (v : Vfs) : Option (Fin vfsMaxNodes) :=
  (List.finRange vfsMaxNodes).find? fun i => !(v.nodes i).used

/-- `vfs_set_path`: what is behind the NUL stays. -/
def vfsSetPath (node : RamfsNode) (path : List Byte) : RamfsNode :=
  { node with path := putString node.path 0 path }

/-- The string at `a` starts with a path, and a `/` follows. -/
def pathBeneath (m : ℕ → Byte) : ℕ → List Byte → Bool
  | a, [] => m a == slash
  | a, c :: s => m a == c && pathBeneath m (a + 1) s

/-! ## Nodes -/

/-- `count--` of an `unsigned long`. -/
def decrement (count : ℕ) : ℕ := (count + (2 ^ 64 - 1)) % 2 ^ 64

/-- `vfs_init`: the data of the nodes is not wiped. -/
def vfsInit (v : Vfs) : Vfs :=
  { v with
    fileCount := 0
    dirCount := 0
    nodes := fun i => { vfsSetPath (v.nodes i) [] with used := false, size := 0 } }

/-- `vfs_mkdir`: it does not ask whether the path is routed. -/
def vfsMkdir (v : Vfs) (path : CStr) : Vfs × Bool :=
  if !vfsPathValid path || (vfsFind v path).isSome || !vfsParentExists v path
      || decide (vfsMaxDirs ≤ v.dirCount) then
    (v, false)
  else
    match vfsAllocNode v with
    | none => (v, false)
    | some i =>
      let node := { vfsSetPath (v.nodes i) path.chars with
        size := 0, kind := .directory, used := true }
      ({ v with nodes := Function.update v.nodes i node, dirCount := v.dirCount + 1 }, true)

/-- A used node other than `n` beneath the path. -/
def nodeBeneath (v : Vfs) (n i : Fin vfsMaxNodes) (path : CStr) : Bool :=
  (v.nodes i).used && i != n && pathBeneath (v.nodes i).path 0 path.chars

/-- `vfs_remove`: a directory only if it has no node beneath it. -/
def vfsRemove (v : Vfs) (path : CStr) : Vfs × Bool :=
  match vfsFind v path with
  | none => (v, false)
  | some n =>
    let cleared := { vfsSetPath (v.nodes n) [] with used := false, size := 0 }
    let v' := { v with nodes := Function.update v.nodes n cleared }
    match (v.nodes n).kind with
    | .directory =>
      if (List.finRange vfsMaxNodes).any fun i => nodeBeneath v n i path then (v, false)
      else ({ v' with dirCount := decrement v.dirCount }, true)
    | .file => ({ v' with fileCount := decrement v.fileCount }, true)

/-- What follows the first `length` characters of a node's path. -/
def pathSuffix (node : RamfsNode) (length : ℕ) : List Byte := stringAt node.path length vfsMaxPath

/-- The last loop of `vfs_rename`: each turn reads and writes its own node. -/
def renamedNode (v : Vfs) (n : Fin vfsMaxNodes) (old new : CStr) (i : Fin vfsMaxNodes) :
    RamfsNode :=
  if nodeBeneath v n i old then
    vfsSetPath (v.nodes i) (new.chars ++ pathSuffix (v.nodes i) old.length)
  else v.nodes i

/-- `vfs_rename`, of a node and of what is beneath it: it fails before it changes anything, also
where one of the new paths would be too long or a directory would go beneath itself. -/
def vfsRename (v : Vfs) (old new : CStr) : Vfs × Bool :=
  match vfsFind v old with
  | none => (v, false)
  | some n =>
    if !vfsPathValid new || (vfsFind v new).isSome || !vfsParentExists v new then (v, false)
    else if (v.nodes n).kind = .directory ∧ old.length < new.length
        ∧ new.chars[old.length]? = some slash ∧ new.chars.take old.length = old.chars then
      (v, false)
    else if (List.finRange vfsMaxNodes).any fun i => nodeBeneath v n i old
        && decide (vfsMaxPath ≤ new.length + (pathSuffix (v.nodes i) old.length).length) then
      (v, false)
    else
      ({ v with
        nodes := Function.update (renamedNode v n old new) n (vfsSetPath (v.nodes n) new.chars) },
        true)

/-! ## Files -/

/-- `sfs_read_file` into `disk_file_buffer`, with the size of the file. -/
def loadDiskFile (v : Vfs) (path : CStr) : Vfs × Option ℕ :=
  match sfsReadFile v.sfs path true sfsMaxFileSize with
  | (sfs, none) => ({ v with sfs := sfs }, none)
  | (sfs, some bytes) =>
    ({ v with
      sfs := sfs
      diskFileBuffer := blit v.diskFileBuffer 0 (fun i => bytes.getD i 0) bytes.length },
      some bytes.length)

/-- `sfs_write_file` of the first `size` bytes of `disk_file_buffer`. -/
def storeDiskFile (v : Vfs) (path : CStr) (size : ℕ) : Vfs × Bool :=
  match sfsWriteFile v.sfs path (some v.diskFileBuffer) size with
  | (sfs, ok) => ({ v with sfs := sfs }, ok)

/-- The file of a path that is not routed. -/
def ramFile (v : Vfs) (path : CStr) : Option (Fin vfsMaxNodes) :=
  (vfsFind v path).filter fun i => (v.nodes i).kind == .file

/-- `vfs_create`: over SaturnFS it is a write, which may overwrite; among the nodes the path must be
new. -/
def vfsCreate (v : Vfs) (path : CStr) (data : Buffer) (size : ℕ) : Vfs × Bool :=
  match vfsDiskPath path with
  | some diskPath =>
    match sfsWriteFile v.sfs diskPath data size with
    | (sfs, ok) => ({ v with sfs := sfs }, ok)
  | none =>
    if !vfsPathValid path || decide (vfsMaxFileSize < size) || (size != 0 && data.isNone)
        || (vfsFind v path).isSome || !vfsParentExists v path
        || decide (vfsMaxFiles ≤ v.fileCount) then
      (v, false)
    else
      match vfsAllocNode v with
      | none => (v, false)
      | some i =>
        let node := { vfsSetPath (v.nodes i) path.chars with
          data := blit (v.nodes i).data 0 (data.getD fun _ => 0) size
          size := size
          kind := .file
          used := true }
        ({ v with nodes := Function.update v.nodes i node, fileCount := v.fileCount + 1 }, true)

/-- `vfs_write`, with the size it returns.  What is between the old end and the offset stays as it
was; over SaturnFS the whole file goes through the buffer. -/
def vfsWrite (v : Vfs) (path : CStr) (offset : ℕ) (buffer : Buffer) (size : ℕ) : Vfs × Option ℕ :=
  match vfsDiskPath path with
  | some diskPath =>
    if size = 0 ∨ buffer.isNone ∨ sfsMaxFileSize < offset ∨ sfsMaxFileSize - offset < size then
      (v, none)
    else
      match loadDiskFile v diskPath with
      | (v, none) => (v, none)
      | (v, some current) =>
        let v := { v with
          diskFileBuffer := blit v.diskFileBuffer offset (buffer.getD fun _ => 0) size }
        match storeDiskFile v diskPath (max (offset + size) current) with
        | (v, true) => (v, some size)
        | (v, false) => (v, none)
  | none =>
    match ramFile v path with
    | none => (v, none)
    | some i =>
      if (size ≠ 0 ∧ buffer.isNone) ∨ vfsMaxFileSize < offset ∨ vfsMaxFileSize - offset < size then
        (v, none)
      else
        let node := { v.nodes i with
          data := blit (v.nodes i).data offset (buffer.getD fun _ => 0) size
          size := max (offset + size) (v.nodes i).size }
        ({ v with nodes := Function.update v.nodes i node }, some size)

/-- `vfs_truncate`: a larger file gets zeros behind its old end; of a smaller one, what is cut off
stays in the array. -/
def vfsTruncate (v : Vfs) (path : CStr) (size : ℕ) : Vfs × Bool :=
  match vfsDiskPath path with
  | some diskPath =>
    if sfsMaxFileSize < size then (v, false)
    else
      match loadDiskFile v diskPath with
      | (v, none) => (v, false)
      | (v, some current) =>
        storeDiskFile { v with
          diskFileBuffer := blit v.diskFileBuffer current (fun _ => 0) (size - current) } diskPath
          size
  | none =>
    match ramFile v path with
    | none => (v, false)
    | some i =>
      if vfsMaxFileSize < size then (v, false)
      else
        let node := { v.nodes i with
          data := blit (v.nodes i).data (v.nodes i).size (fun _ => 0) (size - (v.nodes i).size)
          size := size }
        ({ v with nodes := Function.update v.nodes i node }, true)

/-- `vfs_read`, with the bytes it copies; `hasBuffer` is whether there is a buffer for them. -/
def vfsRead (v : Vfs) (path : CStr) (offset : ℕ) (hasBuffer : Bool) (size : ℕ) :
    Vfs × Option (List Byte) :=
  match vfsDiskPath path with
  | some diskPath =>
    match loadDiskFile v diskPath with
    | (v, none) => (v, none)
    | (v, some fileSize) =>
      if (size ≠ 0 ∧ hasBuffer = false) ∨ fileSize < offset then (v, none)
      else (v, some (cells v.diskFileBuffer offset (min size (fileSize - offset))))
  | none =>
    match ramFile v path with
    | none => (v, none)
    | some i =>
      if (size ≠ 0 ∧ hasBuffer = false) ∨ (v.nodes i).size < offset then (v, none)
      else (v, some (cells (v.nodes i).data offset (min size ((v.nodes i).size - offset))))

/-- `vfs_file_data`, with the bytes its pointer and size give. -/
def vfsFileData (v : Vfs) (path : CStr) : Vfs × Option (List Byte) :=
  match vfsDiskPath path with
  | some diskPath =>
    match loadDiskFile v diskPath with
    | (v, none) => (v, none)
    | (v, some fileSize) => (v, some (cells v.diskFileBuffer 0 fileSize))
  | none => (v, (ramFile v path).map fun i => cells (v.nodes i).data 0 (v.nodes i).size)

/-! ## Runs -/

/-- The calls that change the state; a read of a routed path costs requests and fills the buffer. -/
inductive VfsOp
  | mkdir (path : CStr)
  | remove (path : CStr)
  | rename (old new : CStr)
  | create (path : CStr) (data : Buffer) (size : ℕ)
  | write (path : CStr) (offset : ℕ) (buffer : Buffer) (size : ℕ)
  | truncate (path : CStr) (size : ℕ)
  | read (path : CStr) (offset : ℕ) (hasBuffer : Bool) (size : ℕ)
  | fileData (path : CStr)

/-- The state after a call. -/
def vfsStep (v : Vfs) : VfsOp → Option Vfs
  | .mkdir path => some (vfsMkdir v path).1
  | .remove path => some (vfsRemove v path).1
  | .rename old new => some (vfsRename v old new).1
  | .create path data size => some (vfsCreate v path data size).1
  | .write path offset buffer size => some (vfsWrite v path offset buffer size).1
  | .truncate path size => some (vfsTruncate v path size).1
  | .read path offset hasBuffer size => some (vfsRead v path offset hasBuffer size).1
  | .fileData path => some (vfsFileData v path).1

end SaturnOS
