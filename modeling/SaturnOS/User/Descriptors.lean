import SaturnOS.User.Streams

/-!
# User/Descriptors — who moves which descriptor

    open, create, dup ──▸ the lowest free one, taken        3 + 0, 3 + 1, 3 + 2, 3 + 3
    read, write, seek, close ──▸ the one that is named

A call on files is about one descriptor of the caller (`calledSlot`), and every other one of every
task stays as it was (`OnlyDescriptor`).  With the streams of `User/Streams` this is what a program
may rely on, along every run (`descriptor_streams`).
-/

open Machinery

namespace SaturnOS

/-! ## Frames -/

/-- Of all descriptors only the caller's at `slot` may change. -/
structure OnlyDescriptor (slot : Option (Fin 4)) (o o' : OsState) : Prop where
  files : ∀ i j, (i = o.kernel.currentTask → slot ≠ some j) →
    (o'.kernel.tasks i).files j = (o.kernel.tasks i).files j

/-- …whenever the call comes back. -/
def CallFrame (slot : Option (Fin 4)) (o : OsState) (r : SyscallReturn) : Prop :=
  ∀ o' result, r = some (o', result) → OnlyDescriptor slot o o'

section Frames

variable {slot : Option (Fin 4)} {o : OsState}

theorem OnlyDescriptor.of_tasks {o' : OsState} (h : o'.kernel.tasks = o.kernel.tasks) :
    OnlyDescriptor slot o o' := ⟨fun i j _ => by rw [h]⟩

theorem OnlyDescriptor.modFile {o' : OsState}
    (hcurrent : o'.kernel.currentTask = o.kernel.currentTask)
    (h : o'.kernel.tasks = o.kernel.tasks) (j : Fin 4) (f : TaskFile → TaskFile) :
    OnlyDescriptor (some j) o (o'.modFile j f) := by
  refine ⟨fun i j' hne => ?_⟩
  rw [← h]
  refine o'.kernel.modTask_ind o'.kernel.currentTask
    (fun t => { t with files := Function.update t.files j (f (t.files j)) })
    (P := fun i t => (i = o.kernel.currentTask → some j ≠ some j') →
      t.files j' = (o'.kernel.tasks i).files j') (fun hne => ?_) (fun _ _ _ => rfl) i hne
  have hj : j' ≠ j := fun heq => hne hcurrent (congrArg some heq.symm)
  exact Function.update_of_ne hj _ _

theorem CallFrame.of_tasks {o' : OsState} (h : o'.kernel.tasks = o.kernel.tasks) (result : ℤ) :
    CallFrame slot o (some (o', result)) := by
  intro o₁ n heq
  obtain ⟨rfl, -⟩ := Prod.mk.inj (Option.some.inj heq)
  exact .of_tasks h

theorem CallFrame.modFile {o' : OsState} (hcurrent : o'.kernel.currentTask = o.kernel.currentTask)
    (h : o'.kernel.tasks = o.kernel.tasks) (j : Fin 4) (f : TaskFile → TaskFile) (result : ℤ) :
    CallFrame (some j) o (some (o'.modFile j f, result)) := by
  intro o₁ n heq
  obtain ⟨rfl, -⟩ := Prod.mk.inj (Option.some.inj heq)
  exact .modFile hcurrent h j f

theorem CallFrame.aborted : CallFrame slot o none := fun _ _ h => by cases h

end Frames

section Calls

variable {L : Layout} {S : Symbols} {o : OsState}

theorem syscallWrite_frame (fd buffer length : Word) :
    CallFrame (fdSlot fd) o (syscallWrite L o fd buffer length) := by
  rw [syscallWrite]
  split
  · exact .of_tasks (by rfl) _
  split
  · exact .of_tasks (by rfl) _
  split
  · exact .of_tasks (by rfl) _
  split
  · cases userLoadBytes L o.kernel buffer length.toNat with
    | none => exact .aborted
    | some bytes => exact .of_tasks (by rfl) _
  split
  · exact .of_tasks (by rfl) _
  rename_i slot hslot
  rw [(usedFile_spec hslot).2.1]
  split
  · exact .of_tasks (by rfl) _
  · cases userLoadBytes L o.kernel buffer length.toNat with
    | none => exact .aborted
    | some bytes => exact .modFile (by rfl) (by rfl) slot _ _

theorem syscallRead_frame (fd buffer length : Word) :
    CallFrame (fdSlot fd) o (syscallRead L o fd buffer length) := by
  rw [syscallRead]
  split
  · exact .of_tasks (by rfl) _
  split
  · exact .of_tasks (by rfl) _
  split
  · exact .of_tasks (by rfl) _
  split
  · exact .of_tasks (by rfl) _
  rename_i slot hslot
  rw [(usedFile_spec hslot).2.1]
  split
  · exact .of_tasks (by rfl) _
  · rename_i v bytes heq
    cases hstore : userStoreBytes L buffer bytes o.kernel with
    | none => exact .aborted
    | some k =>
      obtain ⟨pages, rfl⟩ := userStoreBytes_pages hstore
      exact .modFile (by rfl) (by rfl) slot _ _

theorem syscallSeek_frame (fd place : Word) :
    CallFrame (fdSlot fd) o (some (syscallSeek o fd place)) := by
  rw [syscallSeek]
  split
  · exact .of_tasks (by rfl) _
  rename_i slot hslot
  rw [(usedFile_spec hslot).2.1]
  split
  · exact .of_tasks (by rfl) _
  · split
    · exact .of_tasks (by rfl) _
    · exact .modFile (by rfl) (by rfl) slot _ _

theorem syscallClose_frame (fd : Word) : CallFrame (fdSlot fd) o (some (syscallClose o fd)) := by
  rw [syscallClose]
  split
  · exact .of_tasks (by rfl) _
  · rename_i slot hslot
    rw [(usedFile_spec hslot).2.1]
    exact .modFile (by rfl) (by rfl) slot _ _

theorem syscallDup_frame (fd : Word) :
    CallFrame (freeFile o.kernel.current) o (some (syscallDup o fd)) := by
  rw [syscallDup]
  split
  · rename_i t source ht hsource
    obtain ⟨-, ht⟩ := Option.ite_none_right_eq_some.mp ht
    obtain rfl := Option.some.inj ht
    split
    · exact .of_tasks (by rfl) _
    · rename_i target hfree
      rw [hfree]
      exact .modFile (by rfl) (by rfl) target _ _
  · exact .of_tasks (by rfl) _

theorem syscallOpen_frame (address length : Word) (create : Bool) :
    CallFrame (freeFile o.kernel.current) o (syscallOpen L o address length create) := by
  rw [syscallOpen]
  split
  · exact .of_tasks (by rfl) _
  rename_i t ht
  obtain ⟨-, ht⟩ := Option.ite_none_right_eq_some.mp ht
  obtain rfl := Option.some.inj ht
  split
  · exact .of_tasks (by rfl) _
  split
  · exact .of_tasks (by rfl) _
  rename_i slot hfree
  rw [hfree]
  split
  · exact .aborted
  · exact .modFile (by rfl) (by rfl) slot _ _
  · rename_i path hcopy
    -- the path is copied into the slot, and the slot is rewritten once more at the end
    have htwice : ∀ v g result, CallFrame (some slot) o
        (some ({ o.modFile slot fun f => { f with path := putPath f.path (path.chars ++ [0]) } with
          vfs := v }.modFile slot g, result)) := by
      intro v g result
      have heq : { o.modFile slot fun f => { f with
          path := putPath f.path (path.chars ++ [0]) } with
            vfs := v }.modFile slot g
          = { o with vfs := v }.modFile slot fun f =>
            g { f with path := putPath f.path (path.chars ++ [0]) } :=
        modFile_modFile { o with vfs := v } slot
          (fun f => { f with path := putPath f.path (path.chars ++ [0]) }) g
      rw [heq]
      exact .modFile (by rfl) (by rfl) slot _ _
    rw [openFile_eq]
    split
    · exact htwice _ _ _
    · rw [openLoaded.eq_def]
      split
      · exact htwice _ _ _
      · exact htwice _ _ _

end Calls

/-! ## A call of a program -/

/-- The calls that take a descriptor. -/
def takesDescriptor (number : Word) : Prop := number = 4 ∨ number = 7 ∨ number = 25

instance (number : Word) : Decidable (takesDescriptor number) := inferInstanceAs
    (Decidable (_ ∨ _ ∨ _))

/-- The descriptor a call is about. -/
def calledSlot (o : OsState) (number fd : Word) : Option (Fin 4) :=
  if takesDescriptor number then freeFile o.kernel.current else fdSlot fd

/-- **A path that is accepted**: it is in readable memory, not too long, a file — one that
`vfs_create` makes or `vfs_truncate` empties, to `create` —, and its disk is as assumed. -/
structure OpenAccepts (L : Layout) (o : OsState) (address length : Word) (create : Bool)
    (path : CStr) : Prop where
  pos : length ≠ 0
  short : length.toNat < taskFilePathSize
  readable : o.readable address length = true
  copied : copyString L o.kernel address length.toNat = some (path, true)
  made : create = true →
    (vfsCreate o.vfs path none 0).2 = true ∨ (vfsTruncate o.vfs path 0).2 = true
  there : create = false → (o.vfs.contents path).isSome = true
  disk : (vfsDiskPath path).isSome = true → DiskAssumed o.vfs.sfs

/-- What a call on files does to the descriptors. -/
structure DescriptorStep (L : Layout) (o : OsState) (number arg0 arg1 : Word) (o' : OsState)
    (ending : SyscallEnd) : Prop where
  others : OnlyDescriptor (calledSlot o number arg0) o o'
  lowest : takesDescriptor number → ∀ fd, ending = .returns fd → 0 ≤ fd →
    ∃ slot : Fin 4, LowestFree o.kernel.current slot ∧ fd = 3 + (slot.val : ℤ)
      ∧ (o'.file slot).used = true
  opened : number = 4 ∨ number = 7 → ∀ slot : Fin 4, ending = .returns (3 + (slot.val : ℤ)) →
    (o'.file slot).offset = 0
  copied : number = 25 → ∀ slot : Fin 4, ending = .returns (3 + (slot.val : ℤ)) →
    ∃ source, fdSlot arg0 = some source ∧ (o.file source).used = true
      ∧ o'.file slot = o.file source
  /-- An accepted path gets the lowest free descriptor… -/
  given : number = 4 ∨ number = 7 → ∀ path slot,
    OpenAccepts L o arg0 arg1 (decide (number = 7)) path → LowestFree o.kernel.current slot →
    ending = .returns (3 + (slot.val : ℤ)) ∧ (o'.file slot).name = path
  /-- …and so does a descriptor in use. -/
  doubled : number = 25 → ∀ source slot, fdSlot arg0 = some source → (o.file source).used = true →
    LowestFree o.kernel.current slot → ending = .returns (3 + (slot.val : ℤ))

section Steps

variable {L : Layout} {S : Symbols} {o : OsState}

theorem CallFrame.ended {slot : Option (Fin 4)} {r : SyscallReturn} (h : CallFrame slot o r) :
    OnlyDescriptor slot o (ended o r).1 := by
  cases hr : r with
  | none => exact .of_tasks rfl
  | some e => exact h e.1 e.2 hr

/-- A call that returns has a result. -/
theorem ended_returns {r : SyscallReturn} {fd : ℤ} (h : (ended o r).2 = .returns fd) :
    r = some ((ended o r).1, fd) := by
  cases hr : r with
  | none =>
    rw [hr] at h
    cases h
  | some e =>
    rw [hr] at h
    rw [show e = (e.1, fd) from Prod.ext rfl (SyscallEnd.returns.inj h)]
    rfl

/-- The calls that name a descriptor. -/
theorem DescriptorStep.named {number arg0 arg1 : Word} (hnumber : ¬ takesDescriptor number)
    {r : SyscallReturn}
    (hframe : CallFrame (fdSlot arg0) o r) :
    DescriptorStep L o number arg0 arg1 (ended o r).1 (ended o r).2 where
  others := by
    rw [calledSlot, if_neg hnumber]
    exact hframe.ended
  lowest htakes := absurd htakes hnumber
  opened h := absurd (h.elim .inl fun h => .inr (.inl h)) hnumber
  copied h := absurd (.inr (.inr h)) hnumber
  given h := absurd (h.elim .inl fun h => .inr (.inl h)) hnumber
  doubled h := absurd (.inr (.inr h)) hnumber

theorem slot_inj {slot slot' : Fin 4} (h : 3 + (slot.val : ℤ) = 3 + (slot'.val : ℤ)) :
    slot = slot' :=
  Fin.ext (by omega)

/-- What `vfs_create` or `vfs_truncate` accepts is made. -/
theorem openMade_accepted {v : Vfs} {path : CStr}
    (hdisk : (vfsDiskPath path).isSome = true → DiskOk v.sfs)
    (h : (vfsCreate v path none 0).2 = true ∨ (vfsTruncate v path 0).2 = true) :
    (openMade v path true).2 = true := by
  have hfails : (vfsCreate v path none 0).2 = false → (vfsCreate v path none 0).1 = v := by
    cases hd : vfsDiskPath path with
    | none => exact vfsCreate_ram_fails hd
    | some diskPath => exact vfsCreate_fails (hdisk (by rw [hd]; rfl))
  rw [openMade, if_pos rfl]
  split
  · rfl
  · rename_i v' heq
    rw [heq] at hfails h
    obtain rfl := hfails rfl
    exact h.resolve_left Bool.false_ne_true

/-- **An accepted path is opened.** -/
theorem OpenAccepts.opens (hok : OsOk L o) {address length : Word} {create : Bool} {path : CStr}
    (h : OpenAccepts L o address length create path) {slot : Fin 4}
    (hslot : LowestFree o.kernel.current slot) :
    ∃ o', syscallOpen L o address length create = some (o', 3 + (slot.val : ℤ))
      ∧ (o'.file slot).name = path := by
  have hlen : path.length < 48 := (copyString_length h.copied).2 rfl ▸ h.short
  have hmade : (openMade o.vfs path create).2 = true ∧
      ((openMade o.vfs path create).1.contents path).isSome = true ∧
      ((vfsDiskPath path).isSome = true →
        (openMade o.vfs path create).1.sfs.device.serves 0 = true) := by
    cases create with
    | false => exact ⟨rfl, h.there rfl, fun hd => (h.disk hd).1 0⟩
    | true =>
      have hmade := openMade_accepted (fun hd => (h.disk hd).ok) (h.made rfl)
      obtain ⟨hcontents, hformatted⟩ := openMade_empty hok.names (fun hd => (h.disk hd).ok) hmade
      exact ⟨hmade, by rw [hcontents]; rfl, fun hd => (hformatted hd).serving 0⟩
  obtain ⟨bytes, hbytes⟩ := Option.isSome_iff_exists.mp hmade.2.1
  have hload := (vfsFileData_routed path hmade.2.2).trans hbytes
  have hopen := syscallOpen_eq hok.table.current_lt h.pos h.short h.readable h.copied create
  have hresult := openResult_present (freeFile_iff.mpr hslot) hlen hmade.1 hload
  have hreturn : syscallOpen L o address length create
      = some ((openResult o path create).1, 3 + (slot.val : ℤ)) :=
    hopen.trans (congrArg some (Prod.ext rfl hresult))
  refine ⟨_, hreturn, ?_⟩
  obtain ⟨path', slot', hcopy, -, hfd, hopened⟩ := syscallOpen_opened hreturn (by omega)
  obtain ⟨rfl, -⟩ := Prod.mk.inj (Option.some.inj (h.copied.symm.trans hcopy))
  rw [slot_inj hfd, hopened.file]
  exact name_putPath _ hlen

/-- **Opening.** -/
theorem DescriptorStep.opens (hok : OsOk L o) {number arg0 arg1 : Word}
    (hnumber : number = 4 ∨ number = 7) :
    DescriptorStep L o number arg0 arg1
      (ended o (syscallOpen L o arg0 arg1 (decide (number = 7)))).1
      (ended o (syscallOpen L o arg0 arg1 (decide (number = 7)))).2 where
  others := by
    rw [calledSlot, if_pos (hnumber.elim .inl fun h => .inr (.inl h))]
    exact (syscallOpen_frame arg0 arg1 _).ended
  lowest _ fd hfd hpos := by
    obtain ⟨path, slot, -, -, rfl, hopened⟩ := syscallOpen_opened (ended_returns hfd) hpos
    exact ⟨slot, freeFile_iff.mp hopened.free, rfl, by rw [hopened.file]; rfl⟩
  opened _ slot hfd := by
    obtain ⟨path, slot', -, -, hslot, hopened⟩ := syscallOpen_opened (ended_returns hfd) (by omega)
    rw [slot_inj hslot, hopened.file]
    rfl
  copied h := by
    rcases hnumber with rfl | rfl <;> cases h
  given _ path slot haccepts hslot := by
    obtain ⟨o', hopen, hname⟩ := haccepts.opens hok hslot
    rw [hopen]
    exact ⟨rfl, hname⟩
  doubled h := by
    rcases hnumber with rfl | rfl <;> cases h

/-- A descriptor that was doubled: the lowest free one, as the source. -/
theorem syscallDup_copied {arg0 : Word} {o' : OsState} {fd : ℤ} (h : syscallDup o arg0 = (o', fd))
    (hfd : 0 ≤ fd) : ∃ target source : Fin 4, fd = 3 + (target.val : ℤ)
      ∧ freeFile o.kernel.current = some target ∧ fdSlot arg0 = some source
      ∧ (o.file source).used = true ∧ o'.file target = o.file source := by
  rw [syscallDup] at h
  split at h
  · rename_i t source ht hsource
    obtain ⟨-, ht⟩ := Option.ite_none_right_eq_some.mp ht
    obtain rfl := Option.some.inj ht
    obtain ⟨-, hslot, hused⟩ := usedFile_spec hsource
    split at h
    · obtain ⟨-, rfl⟩ := Prod.mk.inj h
      exact absurd hfd (by decide)
    · rename_i target hfree
      obtain ⟨rfl, rfl⟩ := Prod.mk.inj h
      exact ⟨target, source, rfl, hfree, hslot, hused, modFile_file o target _⟩
  · obtain ⟨-, rfl⟩ := Prod.mk.inj h
    exact absurd hfd (by decide)

/-- A descriptor in use is doubled, where one is free. -/
theorem syscallDup_doubles (hcurrent : o.kernel.currentTask < o.kernel.taskCount) {fd : Word}
    {source target : Fin 4} (hfd : fdSlot fd = some source) (hused : (o.file source).used = true)
    (hfree : LowestFree o.kernel.current target) :
    (syscallDup o fd).2 = 3 + (target.val : ℤ) := by
  have hsource : usedFile o.kernel fd = some source := by
    rw [usedFile, currentTaskMutable, if_pos hcurrent, hfd]
    exact if_pos hused
  rw [syscallDup, currentTaskMutable, if_pos hcurrent, hsource]
  dsimp only
  rw [freeFile_iff.mpr hfree]

/-- **Doubling.** -/
theorem DescriptorStep.dups (hok : OsOk L o) {arg0 arg1 : Word} : DescriptorStep L o 25 arg0 arg1
    (ended o (some (syscallDup o arg0))).1 (ended o (some (syscallDup o arg0))).2 where
  others := by
    rw [calledSlot, if_pos (.inr (.inr rfl))]
    exact (syscallDup_frame arg0).ended
  lowest _ fd hfd hpos := by
    obtain ⟨target, source, rfl, hfree, -, hused, hcopied⟩ :=
      syscallDup_copied (Option.some.inj (ended_returns hfd)) hpos
    exact ⟨target, freeFile_iff.mp hfree, rfl, hcopied ▸ hused⟩
  opened h := by
    rcases h with h | h <;> cases h
  copied _ slot hfd := by
    obtain ⟨target, source, hslot, -, hnamed, hused, hcopied⟩ :=
      syscallDup_copied (Option.some.inj (ended_returns hfd)) (by omega)
    rw [slot_inj hslot]
    exact ⟨source, hnamed, hused, hcopied⟩
  given h := by
    rcases h with h | h <;> cases h
  doubled _ source slot hfd hused hslot :=
    congrArg SyscallEnd.returns (syscallDup_doubles hok.table.current_lt hfd hused hslot)

/-- The numbers of `open`, `create`, `read`, `write`, `seek`, `dup` and `close`. -/
def descriptorCalls : List Word := [1, 4, 5, 6, 7, 8, 25]

/-- **Call by call.** -/
theorem descriptorStep (hok : OsOk L o) {number : Word} (hnumber : number ∈ descriptorCalls)
    (arg0 arg1 arg2 arg3 : Word) :
    DescriptorStep L o number arg0 arg1 (syscallDispatch L S o number arg0 arg1 arg2 arg3).1
      (syscallDispatch L S o number arg0 arg1 arg2 arg3).2 := by
  have hcases : number = 1 ∨ number = 4 ∨ number = 5 ∨ number = 6 ∨ number = 7 ∨ number = 8 ∨ number
      = 25 := by
    simpa [descriptorCalls] using hnumber
  rcases hcases with rfl | rfl | rfl | rfl | rfl | rfl | rfl
  · exact .named (by decide) (syscallWrite_frame arg0 arg1 arg2)
  · exact .opens hok (.inl rfl)
  · exact .named (by decide) (syscallRead_frame arg0 arg1 arg2)
  · exact .named (by decide) (syscallClose_frame arg0)
  · exact .opens hok (.inr rfl)
  · exact .named (by decide) (syscallSeek_frame arg0 arg1)
  · exact .dups hok

/-- …as an event. -/
def DescriptorCall (L : Layout) (S : Symbols) (o : OsState) (e : OsEvent) (o' : OsState) : Prop :=
  ∀ number ∈ descriptorCalls, ∀ arg0 arg1 arg2 arg3, e = .syscall number arg0 arg1 arg2 arg3 →
    DescriptorStep L o number arg0 arg1 o' (syscallDispatch L S o number arg0 arg1 arg2 arg3).2

/-- **What was written to a descriptor that was created, a program reads back.** -/
def StreamsOk (L : Layout) (S : Symbols) (o : OsState) : Prop :=
  ∀ address length path o₁ fd ws rs,
    copyString L o.kernel address length.toNat = some (path, true) →
    syscallDispatch L S o 7 address length 0 0 = (o₁, .returns fd) → 0 ≤ fd →
    ((vfsDiskPath path).isSome = true → DiskAssumed o.vfs.sfs) →
    (∀ w ∈ ws, WriteCall.Ok L o w) → (∀ r ∈ rs, ReadCall.Ok L o r) →
    (ws.flatMap (·.bytes)).length ≤ 4096 →
    let file := BitVec.ofInt 64 fd
    let written := writeAll L S file ws o₁
    let sought := syscallDispatch L S written.1 8 file 0 0 0
    written.2 = ws.map (fun w => .returns (w.bytes.length : ℤ)) ∧ sought.2 = .returns 0
      ∧ GivesBack (ws.flatMap (·.bytes)) (rs.map (·.length.toNat)) (readAll L S file rs sought.1)

theorem streamsOk (hnames : NamesOk o.vfs) : StreamsOk L S o := by
  intro address length path o₁ fd ws rs hcopy hcreate hfd hdisk hws hrs hfits
  have hreturn : syscallOpen L o address length true = some (o₁, fd) := by
    have hended : ended o (syscallOpen L o address length true) = (o₁, .returns fd) := hcreate
    have hresult := ended_returns (congrArg Prod.snd hended)
    rwa [hended] at hresult
  obtain ⟨path', slot, hcopy', hlen, rfl, hopened⟩ := syscallOpen_opened hreturn hfd
  obtain ⟨rfl, -⟩ := Prod.mk.inj (Option.some.inj (hcopy.symm.trans hcopy'))
  obtain ⟨hstream, hview⟩ := hopened.stream hnames hlen fun hd => (hdisk hd).ok
  obtain ⟨hresults, hstream, hview'⟩ := hstream.writeAll (L := L) (S := S) ws
    (fun w hw => (hws w hw).congr hview) (by simpa using hfits)
  rw [List.nil_append] at hstream
  have hstart : (0 : Word).toNat ≤ (ws.flatMap (·.bytes)).length := Nat.zero_le _
  obtain ⟨o₂, hseek, hstream', hview''⟩ := hstream.seek hstart
  have hsought : syscallDispatch L S (writeAll L S (slotFd slot) ws o₁).1 8 (slotFd slot) 0 0 0
      = (o₂, .returns 0) :=
    congrArg (fun r => ended (writeAll L S (slotFd slot) ws o₁).1 (some r)) hseek
  have hreads := hstream'.readAll (L := L) (S := S) rs (Nat.zero_le _) hfits fun r hr =>
    (hrs r hr).congr ((hview.trans hview').trans hview'')
  refine ⟨hresults, congrArg Prod.snd hsought, ?_⟩
  show GivesBack _ _ (readAll L S (slotFd slot) rs
    (syscallDispatch L S (writeAll L S (slotFd slot) ws o₁).1 8 (slotFd slot) 0 0 0).1)
  rw [hsought, hreads]
  refine givesBack_cuts fun n hn => ?_
  obtain ⟨r, hr, rfl⟩ := List.mem_map.mp hn
  exact (hrs r hr).pos

end Steps

/-- **Descriptor streams**, in every state reached from boot, and the descriptors along every
run. -/
theorem descriptor_streams (L : Layout) (S : Symbols) (st : SpaceStatics) (v : Vfs)
    (events : List OsEvent) :
    Always (osStep L S) (fun o => StreamsOk L S o ∧ DescriptorsOk o.kernel) (bootOs L S st v) events
      ∧ Along (osStep L S) (DescriptorCall L S) (bootOs L S st v) events := by
  refine ⟨Always.of_inv (I := OsOk L) (fun _ _ _ h hstep => osOk_step h hstep)
    (fun o h => ⟨streamsOk h.names, h.descriptors⟩) (osOk_boot L S st v) events, ?_⟩
  refine Along.imp_of_inv (I := OsOk L) (C := fun _ _ _ => True) (fun o e o' hok hstep _ => ?_)
    (osOk_boot L S st v) (Along.of_forall (fun _ _ _ _ => trivial) _ _)
  refine ⟨osOk_step hok hstep, ?_⟩
  rintro number hnumber arg0 arg1 arg2 arg3 rfl
  obtain ⟨-, ho⟩ := Option.ite_none_right_eq_some.mp hstep
  obtain rfl := Option.some.inj ho
  exact descriptorStep hok hnumber arg0 arg1 arg2 arg3

end SaturnOS
