import Mathlib.Data.BitVec
import SaturnOS.Machinery.Words
import SaturnOS.Sched.Creation
import SaturnOS.Sched.System

/-!
# Sched/Arguments — the data page of a new task

    ┌ data ┬ 0 ⋯ ┬ argv[8] ┬ lengths[8] ┬ arg₀ ␀ arg₁ ␀ ⋯ ┬ 0 ⋯ ┐
    0            base      base + 64    base + 128               4096

The argument is read three times: for its length, to count its words, and to copy them.  The three
loops agree (`argument_read`), and what the copies leave in the data page is a function of image and
argument alone (`childPage`).
-/

open Machinery

namespace SaturnOS

/-! ## Reading the argument -/

/-- The loop that measures the argument, one turn. -/
def lengthTurn (m : ℕ → Byte) (argumentLength : ℕ) : ℕ ⊕ Option ℕ :=
  if m argumentLength = 0 then .inr (some argumentLength)
  else if taskUserArgumentMax < argumentLength + 1 then .inr none
  else .inl (argumentLength + 1)

/-- The loop that counts, one turn: it stays below the length. -/
def countTurn (m : ℕ → Byte) (argumentLength : ℕ) : ℕ × ℕ → (ℕ × ℕ) ⊕ Option ℕ
  | (i, argc) =>
    if argumentLength ≤ i then .inr (some argc)
    else
      let i := advance (fun i => m i == 0x20) (argumentLength - i) i
      if argumentLength ≤ i then .inl (i, argc)
      else if taskUserArgMax < argc + 1 then .inr none
      else .inl (advance (fun i => m i != 0x20) (argumentLength - i) i, argc + 1)

/-- The loop that copies, for so many arguments from `source` on: it stops at the NUL only.  The
scans are given `turns`. -/
def packLoop (m : ℕ → Byte) (turns : ℕ) (space : AddressSpace) : ℕ → ℕ → Word → SpaceStatics →
    Option (SpaceStatics × Option (List Word × List Word))
  | 0, _, _, st => some (st, some ([], []))
  | argc + 1, source, cursor, st =>
    (loop (scan fun i => m i == 0x20) turns source).bind fun start =>
    (loop (scan fun i => m i != 0 && m i != 0x20) turns start).bind fun source =>
      let size := BitVec.ofNat 64 (source - start)
      match addressSpaceWriteUserData st space cursor (some fun i => m (start + i)) size with
      | (st, false) => some (st, none)
      | (st, true) =>
        let st := (addressSpaceWriteUserData st space (cursor + size) (listBuffer [0]) 1).1
        (packLoop m turns space argc source (cursor + size + 1) st).map fun
          | (st, none) => (st, none)
          | (st, some (argv, lengths)) =>
            (st, some ((space.userDataStart + cursor) :: argv, size :: lengths))

section Reading

variable {m : ℕ → Byte} {text : List Byte}

/-- **Measuring** finds the length, or that it is too long. -/
theorem leaves_length (h : Spells m 0 text) : Leaves (lengthTurn m) 0
    (if text.length ≤ taskUserArgumentMax then some text.length else none) := by
  have hchar : ∀ i < text.length, m i ≠ 0 := fun i hi => by
    have := (Spells.at (t := []) (by rwa [List.append_nil]) i hi).2
    rwa [Nat.zero_add] at this
  have hend : m text.length = 0 := by
    have := (spells_iff.mp h).2.2
    rwa [Nat.zero_add] at this
  refine (leaves_through id (min text.length taskUserArgumentMax) fun i hi => ?_).mpr ?_
  · rw [id, lengthTurn, if_neg (hchar i (by omega)), if_neg (by omega)]
    rfl
  · split
    · rename_i hle
      rw [Nat.min_eq_left hle]
      have hturn : lengthTurn m text.length = .inr (some text.length) := if_pos hend
      exact (leaves_end hturn).mpr rfl
    · rename_i hlong
      rw [Nat.min_eq_right (by omega)]
      refine (leaves_end ?_).mpr rfl
      rw [id, lengthTurn, if_neg (hchar _ (by omega)), if_pos (Nat.lt_succ_self _)]

/-- **Counting** finds the number of words, or that there are too many. -/
theorem leaves_count {ws : List (List Byte)} (hws : Words (· ≠ 0x20) text ws) {a n : ℕ}
    (argc : ℕ) (h : Spells m a text) (hn : a + text.length = n) (hargc : argc ≤ taskUserArgMax) :
    Leaves (countTurn m n) (a, argc)
      (if argc + ws.length ≤ taskUserArgMax then some (argc + ws.length) else none) := by
  induction hws generalizing a argc with
  | @none gap hgap =>
    rw [if_pos (by simpa using hargc), List.length_nil, Nat.add_zero]
    have hturn : countTurn m n (n, argc) = .inr (some argc) := if_pos le_rfl
    have hdone : Leaves (countTurn m n) (n, argc) (some argc) := (leaves_end hturn).mpr rfl
    rcases Nat.eq_zero_or_pos gap.length with hzero | hpos
    · rw [hzero, Nat.add_zero] at hn
      rwa [hn]
    · have hskip : advance (fun i => m i == 0x20) (n - a) a = n := by
        rw [advance_eq (d := gap.length) (fun x hx => ?_) (by omega) (.inl (by omega)), hn]
        have := (Spells.at (t := []) (by rwa [List.append_nil]) x hx).1
        simpa using hgap _ this
      have hturn : countTurn m n (a, argc) = .inl (n, argc) := by
        rw [countTurn, if_neg (by omega)]
        dsimp only
        rw [hskip, if_pos le_rfl]
      exact (leaves_next hturn).mpr hdone
  | @word gap w rest ws hgap hne hw hend hrest ih =>
    have hpos := List.length_pos_of_ne_nil hne
    rw [List.length_append, List.length_append] at hn
    have hword := h.drop
    have hskip : advance (fun i => m i == 0x20) (n - a) a = a + gap.length := by
      refine advance_eq (fun x hx => ?_) (by omega) (.inr ?_)
      · simpa using hgap _ (h.at x hx).1
      · simpa using hw _ (hword.at 0 hpos).1
    have hread : advance (fun i => m i != 0x20) (n - (a + gap.length)) (a + gap.length)
        = a + gap.length + w.length := by
      refine advance_eq (fun x hx => ?_) (by omega) ?_
      · simpa using hw _ (hword.at x hx).1
      · cases rest with
        | nil => exact .inl (by rw [← hn, List.length_nil]; omega)
        | cons c rest =>
          refine .inr ?_
          have hc := hend c rfl
          rw [hword.behind]
          simpa using hc
    have hturn : countTurn m n (a, argc) = if taskUserArgMax < argc + 1 then .inr none
        else .inl (a + gap.length + w.length, argc + 1) := by
      rw [countTurn, if_neg (by omega)]
      dsimp only
      rw [hskip, if_neg (by omega), hread]
    by_cases hmany : taskUserArgMax < argc + 1
    · rw [if_pos hmany] at hturn
      rw [if_neg (by rw [List.length_cons]; omega)]
      exact (leaves_end hturn).mpr rfl
    · rw [if_neg hmany] at hturn
      rw [leaves_next hturn, List.length_cons, Nat.add_comm ws.length 1, ← Nat.add_assoc]
      exact ih _ hword.drop (by omega) (by omega)

/-- A write reads no further than its size. -/
theorem writeUserData_congr (st : SpaceStatics) (space : AddressSpace) (offset size : Word)
    {f g : ℕ → Byte} (h : ∀ i < size.toNat, f i = g i) :
    addressSpaceWriteUserData st space offset (some f) size
      = addressSpaceWriteUserData st space offset (some g) size := by
  have hpage (page : Page) :
      writePage page offset.toNat size.toNat f = writePage page offset.toNat size.toNat g := by
    funext i
    rw [writePage, writePage]
    split
    · exact h _ (by omega)
    · rfl
  rw [addressSpaceWriteUserData, addressSpaceWriteUserData]
  dsimp only [Option.getD_some, Option.isNone_some]
  split
  · rw [hpage]
  · rfl

/-- **Copying** packs the words, where the scans have turns enough. -/
theorem packLoop_eq {ws : List (List Byte)} (hws : Words (· ≠ 0x20) text ws) {a turns : ℕ}
    (h : Spells m a text) (hturns : text.length < turns) (htext : text.length < 2 ^ 64)
    (space : AddressSpace) (cursor : Word) (st : SpaceStatics) :
    packLoop m turns space ws.length a cursor st = some (packStrings space ws cursor st) := by
  induction hws generalizing a cursor st with
  | none => rfl
  | @word gap w rest ws hgap hne hw hend hrest ih =>
    have hpos := List.length_pos_of_ne_nil hne
    rw [List.length_append, List.length_append] at hturns htext
    have hword := h.drop
    have hskip : loop (scan fun i => m i == 0x20) turns a = some (a + gap.length) := by
      refine loop_scan (fun x hx => ?_) ?_ (by omega)
      · simpa using hgap _ (h.at x hx).1
      · simpa using hw _ (hword.at 0 hpos).1
    have hread : loop (scan fun i => m i != 0 && m i != 0x20) turns (a + gap.length)
        = some (a + gap.length + w.length) := by
      refine loop_scan (fun x hx => ?_) ?_ (by omega)
      · obtain ⟨hmem, hzero⟩ := hword.at x hx
        rw [Bool.and_eq_true, bne_iff_ne, bne_iff_ne]
        exact ⟨hzero, hw _ hmem⟩
      · rw [hword.behind]
        cases rest with
        | nil => rfl
        | cons c rest =>
          have hc : c = 0x20 := by simpa using hend c rfl
          simp [hc]
    have hsize : (BitVec.ofNat 64 w.length).toNat = w.length := by
      rw [BitVec.toNat_ofNat]
      exact Nat.mod_eq_of_lt (by omega)
    have hwrite := writeUserData_congr st space cursor (BitVec.ofNat 64 w.length)
      (f := fun i => m (a + gap.length + i)) (g := fun i => w.getD i 0) fun i hi => by
        rw [hsize] at hi
        have hcell := (spells_iff.mp hword).2.1 i (by rw [List.length_append]; omega)
        rw [hcell, List.getElem_append_left hi, List.getD_eq_getElem _ _ hi]
    rw [List.length_cons, packLoop, hskip, Option.bind_some, hread, Option.bind_some,
      Nat.add_sub_cancel_left, packStrings]
    dsimp only [listBuffer] at hwrite ⊢
    rw [hwrite]
    generalize addressSpaceWriteUserData st space cursor (some fun i => w.getD i 0)
      (BitVec.ofNat 64 w.length) = r
    obtain ⟨st₁, _ | _⟩ := r
    · rfl
    · dsimp only
      rw [ih hword.drop (by omega) (by omega)]
      generalize packStrings space ws _ _ = r
      obtain ⟨st₂, _ | ⟨argv, lengths⟩⟩ := r
      · rfl
      · rfl

/-- **The three readings agree**: on the length, on the number of words and on what is packed. -/
theorem argument_read (h : Spells m 0 text) (htext : text.length ≤ taskUserArgumentMax) :
    Leaves (lengthTurn m) 0 (some text.length)
      ∧ Leaves (countTurn m text.length) (0, 0)
        (if (argumentTokens text).length ≤ taskUserArgMax then some (argumentTokens text).length
        else none)
      ∧ ∀ turns space cursor st, text.length < turns →
        packLoop m turns space (argumentTokens text).length 0 cursor st
          = some (packStrings space (argumentTokens text) cursor st) := by
  have hws : Words (· ≠ 0x20) text (argumentTokens text) := words_splitOn 0x20 text
  have hlength := leaves_length h
  have hcount := leaves_count hws 0 h (Nat.zero_add _) (Nat.zero_le _)
  rw [if_pos htext] at hlength
  rw [Nat.zero_add] at hcount
  refine ⟨hlength, hcount, fun turns space cursor st hturns => ?_⟩
  exact packLoop_eq hws h hturns (htext.trans_lt (by decide)) space cursor st

end Reading

/-! ## The data page -/

/-- A write replaces what stood where it writes. -/
theorem ofFn_writePage {page : Page} {A B C : List Byte} (bytes : List Byte)
    (h : List.ofFn page = A ++ B ++ C) (hlen : bytes.length = B.length) :
    List.ofFn (writePage page A.length bytes.length fun i => bytes.getD i 0) = A ++ bytes ++ C := by
  have hsize := congrArg List.length h
  rw [List.length_ofFn, List.length_append, List.length_append] at hsize
  refine List.ext_getElem ?_ fun i hi _ => ?_
  · rw [List.length_ofFn, List.length_append, List.length_append]
    omega
  rw [List.length_ofFn] at hi
  have hi' : i < (A ++ B ++ C).length := by
    rw [List.length_append, List.length_append]
    omega
  have hold : page ⟨i, hi⟩ = (A ++ B ++ C)[i] := by
    simp only [← h, List.getElem_ofFn]
  rw [List.getElem_ofFn, writePage]
  split
  · rename_i hin
    dsimp only at hin ⊢
    rw [List.getElem_append_left (by rw [List.length_append]; omega),
      List.getElem_append_right hin.1, List.getD_eq_getElem _ _ (by omega)]
  · rename_i hout
    dsimp only at hout
    rw [hold]
    simp only [List.getElem_append, List.length_append, hlen]
    split
    · split
      · rfl
      · omega
    · rfl

/-- **A write to the data page** puts its bytes in their place, and is done. -/
theorem writeUserData_bytes {space : AddressSpace} {slot : Fin 4} {st : SpaceStatics}
    {A B C : List Byte} (offset size : Word) (bytes : List Byte) (hkind : space.kind = .user)
    (hslot : space.userTableSlot = slot) (h : dataBytes st slot = A ++ B ++ C)
    (hoffset : offset.toNat = A.length) (hsize : size.toNat = bytes.length)
    (hlen : bytes.length = B.length) : ∃ st',
      addressSpaceWriteUserData st space offset (listBuffer bytes) size = (st', true)
        ∧ dataBytes st' slot = A ++ bytes ++ C := by
  have hlive : LiveSpace space := ⟨hkind, by rw [hslot]; exact slot.isLt⟩
  have hroom := congrArg List.length h
  rw [dataBytes, List.length_ofFn, List.length_append, List.length_append] at hroom
  have hok := writeUserData_ok hlive st offset bytes size (by omega)
  rw [addressSpaceWriteUserData, dif_pos ⟨hlive.kind, hlive.slot⟩] at hok ⊢
  dsimp only at hok ⊢
  split at hok
  · cases hok
  · rename_i hchecks
    rw [if_neg hchecks]
    refine ⟨_, rfl, ?_⟩
    have hfin : (⟨space.userTableSlot, hlive.slot⟩ : Fin 4) = slot := Fin.ext hslot
    rw [hfin, dataBytes]
    dsimp only
    rw [Function.update_self, Function.update_self, hoffset, hsize]
    exact ofFn_writePage bytes h hlen

/-! ### The strings -/

/-- The strings of the arguments, a NUL after each. -/
def argumentStrings (tokens : List (List Byte)) : List Byte := tokens.flatMap (· ++ [0])

theorem length_argumentStrings (tokens : List (List Byte)) :
    (argumentStrings tokens).length = stringsSize tokens := by
  rw [argumentStrings, List.length_flatMap, stringsSize]
  exact congrArg List.sum (List.map_congr_left fun token _ => List.length_append)

/-- The addresses of the strings, the first at `start`. -/
def stringAddresses (start : Word) (tokens : List (List Byte)) : List Word :=
  (List.range tokens.length).map fun i => start + BitVec.ofNat 64 (stringsSize (tokens.take i))

/-- …and their lengths. -/
def stringLengths (tokens : List (List Byte)) : List Word :=
  tokens.map fun token => BitVec.ofNat 64 token.length

theorem stringAddresses_cons (start : Word) (token : List Byte) (tokens : List (List Byte)) :
    stringAddresses start (token :: tokens)
      = start :: stringAddresses (start + BitVec.ofNat 64 token.length + 1) tokens := by
  rw [stringAddresses, stringAddresses, List.length_cons, List.range_succ_eq_map, List.map_cons,
    List.map_map, List.take_zero]
  congr 1
  · exact BitVec.add_zero start
  · refine List.map_congr_left fun i _ => ?_
    have hsize : stringsSize (token :: tokens.take i) = token.length + 1 + stringsSize
        (tokens.take i) :=
      rfl
    rw [Function.comp_apply, List.take_succ_cons, hsize, BitVec.ofNat_add, BitVec.ofNat_add,
      ← BitVec.add_assoc, ← BitVec.add_assoc]
    rfl

/-- **The string loop** lays the strings out one behind the other. -/
theorem packStrings_bytes {space : AddressSpace} {slot : Fin 4} (hkind : space.kind = .user)
    (hslot : space.userTableSlot = slot) (tokens : List (List Byte)) (cursor : Word)
    {A B C : List Byte} {st : SpaceStatics} (h : dataBytes st slot = A ++ B ++ C)
    (hcursor : cursor.toNat = A.length) (hB : B.length = stringsSize tokens) : ∃ st',
      packStrings space tokens cursor st
          = (st', some (stringAddresses (space.userDataStart + cursor) tokens,
          stringLengths tokens))
        ∧ dataBytes st' slot = A ++ argumentStrings tokens ++ C := by
  induction tokens generalizing A B cursor st with
  | nil =>
    obtain rfl : B = [] := List.eq_nil_of_length_eq_zero hB
    exact ⟨st, rfl, h⟩
  | cons token tokens ih =>
    have hroom := congrArg List.length h
    rw [dataBytes, List.length_ofFn, List.length_append, List.length_append] at hroom
    have hsize : stringsSize (token :: tokens) = token.length + 1 + stringsSize tokens := rfl
    have hlen : (BitVec.ofNat 64 token.length).toNat = token.length := toNat_small (by omega)
    have hone : (1 : Word).toNat = 1 := rfl
    have hend : (cursor + BitVec.ofNat 64 token.length).toNat = cursor.toNat + token.length := by
      rw [BitVec.toNat_add, hlen]
      omega
    -- the room of this string, of its NUL and of the strings behind
    obtain ⟨B₁, B₂, rfl, hB₁⟩ : ∃ B₁ B₂, B = B₁ ++ B₂ ∧ B₁.length = token.length :=
      ⟨_, _, (List.take_append_drop token.length B).symm, List.length_take_of_le (by omega)⟩
    rw [List.length_append] at hB hroom
    obtain ⟨b, B₃, rfl⟩ : ∃ b B₃, B₂ = b :: B₃ := List.exists_cons_of_length_pos (by omega)
    rw [List.length_cons] at hB
    obtain ⟨st₁, hwrite, hbytes₁⟩ := writeUserData_bytes (A := A) (B := B₁)
      (C := b :: B₃ ++ C) cursor _ token hkind hslot (by rw [h]; simp) hcursor hlen hB₁.symm
    obtain ⟨st₂, hnul, hbytes₂⟩ := writeUserData_bytes (A := A ++ token) (B := [b]) (C := B₃ ++ C)
      (cursor + BitVec.ofNat 64 token.length) 1 [0] hkind hslot (by rw [hbytes₁]; simp)
      (by rw [hend, hcursor, List.length_append]) rfl rfl
    obtain ⟨st₃, hrest, hbytes₃⟩ := ih (cursor + BitVec.ofNat 64 token.length + 1)
      (A := A ++ token ++ [0]) (B := B₃) (hbytes₂.trans (by simp))
      (by rw [BitVec.toNat_add, hend, hone, hcursor, List.length_append, List.length_append]
          simp only [List.length_singleton]
          omega)
      (by omega)
    refine ⟨st₃, ?_, ?_⟩
    · rw [packStrings]
      dsimp only
      rw [hwrite]
      dsimp only
      rw [hnul, hrest, stringAddresses_cons, ← BitVec.add_assoc, ← BitVec.add_assoc]
      rfl
    · rw [hbytes₃, argumentStrings, argumentStrings, List.flatMap_cons]
      simp

/-! ### The page -/

/-- The data size, rounded up to eight. -/
def argumentStart (image : SaturnExecImage) : ℕ := (image.data.length + 7) / 8 * 8

theorem argumentBase_toNat {image : SaturnExecImage} (h : ImageOk image) :
    (argumentBase image).toNat = argumentStart image := by
  have hseven : (7 : Word) = BitVec.ofNat 64 (2 ^ 3 - 1) := rfl
  rw [argumentBase, hseven, toNat_and_not, BitVec.toNat_add, toNat_small h.dataFits, argumentStart,
    Nat.mod_eq_of_lt]
  · rfl
  · have := h.dataFits
    have : (BitVec.ofNat 64 (2 ^ 3 - 1)).toNat = 7 := rfl
    omega

theorem length_argumentArray (ws : List Word) : (argumentArray ws).length = 64 := by
  rw [argumentArray, List.length_flatMap]
  rfl

/-- **The data page of a child**: the data, padded; the eight addresses and the eight lengths; the
strings; and zeros. -/
def childPage (image : SaturnExecImage) (argument : List Byte) : List Byte :=
  image.data ++ List.replicate (argumentStart image - image.data.length) 0
    ++ argumentArray (stringAddresses
      (addressSpaceUserDataStart + BitVec.ofNat 64 (argumentStart image + 128))
      (argumentTokens argument))
    ++ argumentArray (stringLengths (argumentTokens argument))
    ++ argumentStrings (argumentTokens argument)
    ++ List.replicate (4096 - (argumentStart image + 128 + stringsSize (argumentTokens argument))) 0

/-- A task whose argument is packed: what EL0 is given, and what it finds. -/
structure ArgumentsPacked (image : SaturnExecImage) (argument : List Byte) (t : Task)
    (page : List Byte) : Prop where
  argc : t.userArgc = BitVec.ofNat 64 (argumentTokens argument).length
  argv : t.userArgvAddress = addressSpaceUserDataStart + BitVec.ofNat 64 (argumentStart image)
  lengths : t.userArgLengthsAddress
    = addressSpaceUserDataStart + BitVec.ofNat 64 (argumentStart image + 64)
  page_eq : page = childPage image argument
  strings : ∀ i token, (argumentTokens argument)[i]? = some token →
    (page.drop (argumentStart image + 128 + stringsSize ((argumentTokens argument).take i))).take
      (token.length + 1) = token ++ [0]

section Packing

variable {image : SaturnExecImage} {argument : List Byte} {slot : Fin 4}

/-- **The three writes** of the packing, over a page that holds the data and zeros. -/
theorem packed_page {space : AddressSpace} {st : SpaceStatics} (hok : ImageOk image)
    (hfits : (argumentBase image).toNat + 128 + argument.length + 1 ≤ 4096)
    (hkind : space.kind = .user) (hslot : space.userTableSlot = slot)
    (hstart : space.userDataStart = addressSpaceUserDataStart)
    (hdata : dataBytes st slot = image.data ++ List.replicate (4096 - image.data.length) 0) :
    ∃ st₁ st₂ st₃ argv,
      packStrings space (argumentTokens argument) (argumentBase image + 128) st
          = (st₁, some (argv, stringLengths (argumentTokens argument)))
        ∧ addressSpaceWriteUserData st₁ space (argumentBase image) (listBuffer (argumentArray argv))
        64
          = (st₂, true)
        ∧ addressSpaceWriteUserData st₂ space (argumentBase image + 64)
            (listBuffer (argumentArray (stringLengths (argumentTokens argument)))) 64 = (st₃, true)
        ∧ dataBytes st₃ slot = childPage image argument := by
  have hbase := argumentBase_toNat hok
  have htokens := argumentTokens_size argument
  have hsize : image.data.length ≤ argumentStart image := by
    rw [argumentStart]
    omega
  rw [hbase] at hfits
  have hword (n : ℕ) (hn : n ≤ 4096) : (argumentBase image + BitVec.ofNat 64 n).toNat
      = argumentStart image + n := by
    rw [BitVec.toNat_add, toNat_small hn, hbase]
    omega
  have hcursor : argumentBase image + 128 = BitVec.ofNat 64 (argumentStart image + 128) := by
    rw [← BitVec.toNat_inj, toNat_small (by omega)]
    exact hword 128 (by omega)
  rw [childPage]
  generalize argumentTokens argument = tokens at htokens ⊢
  set data := image.data ++ List.replicate (argumentStart image - image.data.length) 0 with hpad
  set rest := List.replicate (4096 - (argumentStart image + 128 + stringsSize tokens)) (0 : Byte)
    with hrest
  have hdatalen : data.length = argumentStart image := by
    rw [hpad, List.length_append, List.length_replicate]
    omega
  -- the zeros behind the data: two arrays, the strings, and the rest
  have hrooms : dataBytes st slot = (data ++ List.replicate 64 0 ++ List.replicate 64 0)
      ++ List.replicate (stringsSize tokens) 0 ++ rest := by
    have hsum : 4096 - image.data.length = (argumentStart image - image.data.length)
        + (64 + (64 + (stringsSize tokens
        + (4096 - (argumentStart image + 128 + stringsSize tokens))))) := by
      omega
    rw [hdata, hpad, hrest, hsum, List.replicate_add, List.replicate_add, List.replicate_add,
      List.replicate_add]
    simp only [List.append_assoc]
  obtain ⟨st₁, hpack, hbytes₁⟩ := packStrings_bytes hkind hslot tokens
    (argumentBase image + 128) hrooms
    (by rw [List.length_append, List.length_append, hdatalen, List.length_replicate]
        exact hword 128 (by omega))
    List.length_replicate
  rw [hstart, hcursor] at hpack
  have hargv := length_argumentArray (stringAddresses
    (addressSpaceUserDataStart + BitVec.ofNat 64 (argumentStart image + 128)) tokens)
  generalize stringAddresses
    (addressSpaceUserDataStart + BitVec.ofNat 64 (argumentStart image + 128)) tokens
    = argv at hpack hargv ⊢
  have hlengths := length_argumentArray (stringLengths tokens)
  obtain ⟨st₂, hwrite₂, hbytes₂⟩ := writeUserData_bytes (A := data) (B := List.replicate 64 0)
    (C := List.replicate 64 0 ++ argumentStrings tokens ++ rest) (argumentBase image) 64
    (argumentArray argv) hkind hslot
    (by rw [hbytes₁]; simp only [List.append_assoc]) (by rw [hbase, hdatalen]) hargv.symm hargv
  obtain ⟨st₃, hwrite₃, hbytes₃⟩ := writeUserData_bytes (A := data ++ argumentArray argv)
    (B := List.replicate 64 0) (C := argumentStrings tokens ++ rest) (argumentBase image + 64) 64
    (argumentArray (stringLengths tokens)) hkind hslot
      (by rw [hbytes₂]; simp only [List.append_assoc])
    (by rw [List.length_append, hdatalen, hargv]
        exact hword 64 (by omega))
    hlengths.symm hlengths
  rw [hcursor]
  refine ⟨st₁, st₂, st₃, argv, hpack, hwrite₂, hwrite₃, ?_⟩
  rw [hbytes₃]
  simp only [List.append_assoc]

/-- Where the page holds the string of an argument. -/
theorem childPage_string {i : ℕ} {token : List Byte}
    (h : (argumentTokens argument)[i]? = some token) :
    ((childPage image argument).drop
        (argumentStart image + 128 + stringsSize ((argumentTokens argument).take i))).take
      (token.length + 1) = token ++ [0] := by
  rw [childPage]
  generalize argumentTokens argument = tokens at h ⊢
  obtain ⟨hi, rfl⟩ := List.getElem?_eq_some_iff.mp h
  have hstrings : argumentStrings tokens = argumentStrings (tokens.take i)
      ++ ((tokens[i] ++ [0]) ++ argumentStrings (tokens.drop (i + 1))) := by
    conv_lhs => rw [argumentStrings, ← List.take_append_drop i tokens, List.drop_eq_getElem_cons hi]
    rw [List.flatMap_append, List.flatMap_cons]
    rfl
  have hle : image.data.length ≤ argumentStart image := by
    rw [argumentStart]
    omega
  have hlen : (image.data ++ List.replicate (argumentStart image - image.data.length) 0
      ++ argumentArray (stringAddresses
        (addressSpaceUserDataStart + BitVec.ofNat 64 (argumentStart image + 128)) tokens)
      ++ argumentArray (stringLengths tokens)).length = argumentStart image + 128 := by
    rw [List.length_append, List.length_append, List.length_append, List.length_replicate,
      length_argumentArray, length_argumentArray]
    omega
  rw [List.append_assoc, List.drop_append, hlen, List.drop_eq_nil_of_le (by omega),
    Nat.add_sub_cancel_left, List.nil_append, hstrings, List.append_assoc, List.append_assoc,
    ← length_argumentStrings, List.drop_left, List.append_assoc, ← List.append_assoc tokens[i]]
  exact List.take_left' List.length_append

/-- **The arguments of a new task are packed**: creation gets through. -/
theorem packArguments_bytes {p : ℕ} {k : Kernel} (hok : ImageOk image)
    (hfits : (argumentBase image).toNat + 128 + argument.length + 1 ≤ 4096)
    (hkind : (k.tasks p).userAddressSpace.kind = .user)
    (hslot : (k.tasks p).userAddressSpace.userTableSlot = slot)
    (hstart : (k.tasks p).userAddressSpace.userDataStart = addressSpaceUserDataStart)
    (hdata : dataBytes k.spaces slot = image.data ++ List.replicate (4096 - image.data.length) 0) :
    ∃ k', packArguments p image argument k = (k', (p : ℤ))
      ∧ (k'.tasks p).userAddressSpace = (k.tasks p).userAddressSpace
      ∧ ArgumentsPacked image argument (k'.tasks p) (dataBytes k'.spaces slot) := by
  obtain ⟨st₁, st₂, st₃, argv, hpack, hargv, hlengths, hpage⟩ :=
    packed_page hok hfits hkind hslot hstart hdata
  have hbase : argumentBase image = BitVec.ofNat 64 (argumentStart image) := by
    rw [← argumentBase_toNat hok, BitVec.ofNat_toNat, BitVec.setWidth_eq]
  rw [packArguments]
  dsimp only
  rw [hpack]
  dsimp only [Kernel.modTask_spaces]
  rw [hargv]
  dsimp only
  rw [hlengths]
  refine ⟨_, rfl, ?_, ?_, ?_, ?_, hpage, fun i token htoken => ?_⟩
  case refine_5 =>
    rw [Kernel.modTask_spaces, hpage]
    exact childPage_string htoken
  all_goals rw [Kernel.modTask_self]; dsimp only; rw [Kernel.modTask_self]
  · rw [hstart, hbase]
  · rw [hstart, hbase, BitVec.add_assoc, BitVec.ofNat_add]
    rfl

end Packing

/-! ## Creation -/

/-- **What the loader leaves in the data page**: the data, and zeros. -/
theorem load_dataBytes (L : Layout) (name : Option String) (root : Word) (slot : Fin 4)
    (shared : Bool)
    {image : SaturnExecImage} (h : ImageOk image) (st : SpaceStatics) : ∃ st' space,
      addressSpaceLoadUserImage st (builtSpace L name root slot shared) (listBuffer image.code)
        (BitVec.ofNat 64 image.code.length) (listBuffer image.data)
        (BitVec.ofNat 64 image.data.length) (BitVec.ofNat 64 image.entryOffset) = (st', space, true)
      ∧ space.kind = .user ∧ space.userTableSlot = slot
      ∧ space.userDataStart = addressSpaceUserDataStart
      ∧ dataBytes st' slot = image.data ++ List.replicate (4096 - image.data.length) 0 := by
  have hclear : List.ofFn addressSpaceClearPage
      = [] ++ List.replicate image.data.length 0 ++ List.replicate (4096 - image.data.length)
      0 := by
    rw [List.nil_append, ← List.replicate_add, Nat.add_sub_cancel' h.dataFits]
    exact List.ofFn_const 4096 0
  rw [addressSpaceLoadUserImage,
    dif_pos ⟨show (builtSpace L name root slot shared).kind = .user from rfl, slot.isLt⟩,
    show (builtSpace L name root slot shared).userMappingsReady = true from rfl, Bool.not_true,
    Bool.false_or, loader_checks h]
  refine ⟨_, _, rfl, rfl, rfl, rfl, ?_⟩
  have hfin : (⟨(builtSpace L name root slot shared).userTableSlot, slot.isLt⟩ : Fin 4) = slot :=
    rfl
  rw [hfin, dataBytes]
  dsimp only
  rw [Function.update_self, Function.update_self, toNat_small h.dataFits]
  have hpage := ofFn_writePage image.data hclear List.length_replicate.symm
  rwa [List.nil_append] at hpage

section Creating

variable {k k₀ k' : Kernel} {name : Option String} {file argument : Option (List Byte)} {p : ℕ}
  {image : SaturnExecImage}

/-- **A creation that finds what it needs** gets through, and ends with the packing. -/
theorem createUserTask_done (L : Layout) (S : Symbols) (name : Option String)
    (himage : userTaskImage file argument = some image)
    (hclaim : claimTaskSlot k = some (k₀, p)) (hp : p < schedMaxTasks) {slot : Fin 4}
    (hfree : lowestFreeSlot k₀.spaces = some slot) :
    ∃ k', schedulerCreateUserTaskFromImage L S name file argument k = (k', (p : ℤ))
      ∧ (k'.tasks p).userAddressSpace.userTableSlot = slot
      ∧ ArgumentsPacked image (argument.getD []) (k'.tasks p) (dataBytes k'.spaces slot) := by
  obtain ⟨hok, hfits⟩ := userTaskImage_fits himage
  obtain ⟨shared, hinit⟩ := addressSpaceInitUser_some L (some (name.getD "user-demo"))
    k₀.spaces.kernelAddressSpace.rootTable hfree
  obtain ⟨st, space, hload, hkind, hslot, hstart, hdata⟩ := load_dataBytes L
    (some (name.getD "user-demo")) k₀.spaces.kernelAddressSpace.rootTable slot shared hok
    (takeSlot L k₀.spaces.kernelAddressSpace.rootTable slot k₀.spaces)
  rw [schedulerCreateUserTaskFromImage, himage]
  dsimp only
  rw [hclaim]
  dsimp only
  rw [if_neg (Nat.not_le.mpr hp), hinit, hload]
  dsimp only
  rw [if_neg (by decide)]
  set k₃ := ((({ k₀ with spaces := st }.modTask p fun t =>
    { t with userAddressSpace := space }).modTask p
    (resetTask S p (some (name.getD "user-demo")) .blocked 0)).modTask p fun t =>
    { t with memory := { t.memory with addressSpace := .user } }) with hk₃
  have hspace : (k₃.tasks p).userAddressSpace = space := by
    rw [hk₃, Kernel.modTask_self, Kernel.modTask_self, Kernel.modTask_self]
    rfl
  have hst : k₃.spaces = st := rfl
  obtain ⟨k₄, hpack, hsame, hpacked⟩ := packArguments_bytes (p := p) (k := k₃) hok hfits
    (by rw [hspace, hkind]) (show _ = (slot : ℕ) by rw [hspace, hslot]) (by rw [hspace, hstart])
    (by rw [hst, hdata])
  exact ⟨k₄, hpack, by rw [hsame, hspace, hslot], hpacked⟩

/-- …and no other gets through. -/
theorem createUserTask_needs (L : Layout) (S : Symbols)
    (h : schedulerCreateUserTaskFromImage L S name file argument k = (k', (p : ℤ))) :
    ∃ image k₀ q, ∃ slot : Fin 4, userTaskImage file argument = some image
      ∧ claimTaskSlot k = some (k₀, q) ∧ q < schedMaxTasks ∧ lowestFreeSlot k₀.spaces
      = some slot := by
  have hneg {a : Kernel} : ¬ (a, (-1 : ℤ)) = (k', (p : ℤ)) := fun heq => by
    have := (Prod.mk.inj heq).2
    omega
  rw [schedulerCreateUserTaskFromImage] at h
  cases himage : userTaskImage file argument with
  | none =>
    rw [himage] at h
    exact absurd h hneg
  | some image =>
    obtain ⟨hok, -⟩ := userTaskImage_fits himage
    rw [himage] at h
    dsimp only at h
    cases hclaim : claimTaskSlot k with
    | none =>
      rw [hclaim] at h
      exact absurd h hneg
    | some claimed =>
      obtain ⟨k₀, q⟩ := claimed
      rw [hclaim] at h
      dsimp only at h
      split at h
      · exact absurd h hneg
      · rename_i hq
        cases hfree : lowestFreeSlot k₀.spaces with
        | some slot => exact ⟨image, k₀, q, slot, rfl, rfl, Nat.not_le.mp hq, hfree⟩
        | none =>
          -- no table slot: the image is not loaded
          have hload := (load_ok hok (addressSpaceInitUser L (some (name.getD "user-demo"))
            k₀.spaces.kernelAddressSpace.rootTable k₀.spaces).1 (addressSpaceInitUser L
            (some (name.getD "user-demo")) k₀.spaces.kernelAddressSpace.rootTable
              k₀.spaces).2).trans
            (decide_eq_false fun hspace => by
              rw [(addressSpaceInitUser_none L (some (name.getD "user-demo"))
                k₀.spaces.kernelAddressSpace.rootTable hfree).2.1] at hspace
              exact Nat.lt_irrefl _ hspace.2.1)
          rw [hload] at h
          exact absurd h hneg

/-- **A creation that succeeds** has packed the arguments. -/
theorem createUserTask_packs (L : Layout) (S : Symbols)
    (h : schedulerCreateUserTaskFromImage L S name file argument k = (k', (p : ℤ))) :
    ∃ image, ∃ slot : Fin 4, userTaskImage file argument = some image
      ∧ (k'.tasks p).userAddressSpace.userTableSlot = slot
      ∧ ArgumentsPacked image (argument.getD []) (k'.tasks p) (dataBytes k'.spaces slot) := by
  obtain ⟨image, k₀, q, slot, himage, hclaim, hq, hfree⟩ := createUserTask_needs L S h
  obtain ⟨k₄, hdone, hslot, hpacked⟩ := createUserTask_done L S name himage hclaim hq hfree
  rw [hdone] at h
  obtain ⟨rfl, hpid⟩ := Prod.mk.inj h
  obtain rfl := Int.ofNat_inj.mp hpid
  exact ⟨image, slot, himage, hslot, hpacked⟩

end Creating

/-- **The checks before a slot is claimed.** -/
theorem userTaskImage_iff {file argument : Option (List Byte)} {image : SaturnExecImage} :
    userTaskImage file argument = some image ↔ saturnExecParse file = some image
      ∧ (argument.getD []).length ≤ taskUserArgumentMax
      ∧ (argumentTokens (argument.getD [])).length ≤ taskUserArgMax
      ∧ argumentStart image + 128 + (argument.getD []).length + 1 ≤ 4096 := by
  rw [userTaskImage]
  cases hparse : saturnExecParse file with
  | none => simp
  | some parsed =>
    have hok : ImageOk parsed := by
      cases file with
      | none => cases hparse
      | some file => exact (accepted_file hparse).1
    have hbase := argumentBase_toNat hok
    have hstart : argumentStart parsed ≤ 4096 := by
      have := hok.dataFits
      rw [argumentStart]
      omega
    by_cases hlong : (argument.getD []).length ≤ taskUserArgumentMax
    · have hsum : (argumentBase parsed + 128 + BitVec.ofNat 64 (argument.getD []).length + 1).toNat
          = argumentStart parsed + 128 + (argument.getD []).length + 1 := by
        have htext : (argument.getD []).length ≤ 128 := hlong
        rw [BitVec.toNat_add, BitVec.toNat_add, BitVec.toNat_add, hbase,
          toNat_small (htext.trans (by decide))]
        have h128 : (128 : Word).toNat = 128 := rfl
        have h1 : (1 : Word).toNat = 1 := rfl
        omega
      have hroom : 4096 < argumentBase parsed + 128 + BitVec.ofNat 64 (argument.getD []).length + 1
          ↔ ¬ argumentStart parsed + 128 + (argument.getD []).length + 1 ≤ 4096 := by
        rw [BitVec.lt_def, hsum, Nat.not_le]
        exact Iff.rfl
      dsimp only
      rw [if_neg (Nat.not_lt.mpr hlong)]
      split
      · rename_i hmany
        simp only [reduceCtorEq, false_iff]
        rintro ⟨-, -, hfew, -⟩
        exact Nat.not_lt.mpr hfew hmany
      · rename_i hfew
        split
        · rename_i hfull
          simp only [reduceCtorEq, false_iff]
          rintro ⟨heq, -, -, hfits⟩
          obtain rfl := Option.some.inj heq
          exact hroom.mp hfull hfits
        · rename_i hfits
          rw [hroom, not_not] at hfits
          constructor
          · intro heq
            obtain rfl := Option.some.inj heq
            exact ⟨rfl, hlong, Nat.not_lt.mp hfew, hfits⟩
          · exact fun h => h.1
    · dsimp only
      rw [if_pos (Nat.not_le.mp hlong)]
      simp only [reduceCtorEq, false_iff]
      exact fun h => hlong h.2.1

/-- **Argument packing.**  The page of a child is a function of its image and its argument; the
three readings of the argument agree on its words; and past the checks no write fails. -/
theorem arguments_packed (L : Layout) (S : Symbols) (name : Option String)
    (file argument : Option (List Byte)) :
    (∀ (k k' : Kernel) (p : ℕ),
      schedulerCreateUserTaskFromImage L S name file argument k = (k', (p : ℤ)) →
      ∃ image, ∃ slot : Fin 4, saturnExecParse file = some image
        ∧ (argumentTokens (argument.getD [])).length ≤ taskUserArgMax
        ∧ (k'.tasks p).userAddressSpace.userTableSlot = slot
        ∧ ArgumentsPacked image (argument.getD []) (k'.tasks p) (dataBytes k'.spaces slot))
    ∧ Words (· ≠ 0x20) (argument.getD []) (argumentTokens (argument.getD []))
    ∧ (∀ m, Spells m 0 (argument.getD []) → (argument.getD []).length ≤ taskUserArgumentMax →
      Leaves (lengthTurn m) 0 (some (argument.getD []).length)
        ∧ Leaves (countTurn m (argument.getD []).length) (0, 0)
          (if (argumentTokens (argument.getD [])).length ≤ taskUserArgMax
            then some (argumentTokens (argument.getD [])).length else none)
        ∧ ∀ turns space cursor st, (argument.getD []).length < turns →
          packLoop m turns space (argumentTokens (argument.getD [])).length 0 cursor st
            = some (packStrings space (argumentTokens (argument.getD [])) cursor st))
    ∧ ∀ image, userTaskImage file argument = some image →
      ∀ space st, space.kind = .user → space.userTableSlot < addressSpaceUserTableSlots →
        (packStrings space (argumentTokens (argument.getD [])) (argumentBase image + 128)
        st).2.isSome
          ∧ ∀ words,
            (addressSpaceWriteUserData st space (argumentBase image)
              (listBuffer (argumentArray words)) 64).2 = true
            ∧ (addressSpaceWriteUserData st space (argumentBase image + 64)
              (listBuffer (argumentArray words)) 64).2 = true := by
  refine ⟨fun k k' p h => ?_, words_splitOn 0x20 _, fun m h hlong => argument_read h hlong,
    fun image himage space st hkind hslot => ?_⟩
  · obtain ⟨image, slot, himage, hslot, hpacked⟩ := createUserTask_packs L S h
    obtain ⟨hparse, -, hfew, -⟩ := userTaskImage_iff.mp himage
    exact ⟨image, slot, hparse, hfew, hslot, hpacked⟩
  · have hfits := (userTaskImage_fits himage).2
    have htokens := argumentTokens_size (argument.getD [])
    have h128 : (argumentBase image + 128).toNat = (argumentBase image).toNat + 128 := by
      rw [BitVec.toNat_add]
      have : (128 : Word).toNat = 128 := rfl
      omega
    have h64 : (argumentBase image + 64).toNat = (argumentBase image).toNat + 64 := by
      rw [BitVec.toNat_add]
      have : (64 : Word).toNat = 64 := rfl
      omega
    have hsize : (64 : Word).toNat = 64 := rfl
    refine ⟨packStrings_ok ⟨hkind, hslot⟩ _ _ st (by omega), fun words => ⟨?_, ?_⟩⟩
    · exact writeUserData_ok ⟨hkind, hslot⟩ st _ _ 64 (by omega)
    · exact writeUserData_ok ⟨hkind, hslot⟩ st _ _ 64 (by omega)

/-- …of a task with the arguments `a` and `b`. -/
theorem arguments_packed_two : ∃ image, ∃ slot :
    Fin 4, saturnExecParse (some wordImage) = some image
    ∧ (argumentTokens [0x61, 0x20, 0x62]).length ≤ taskUserArgMax
    ∧ ((schedulerCreateUserTaskFromImage bssLayout imageSymbols none (some wordImage)
        (some [0x61, 0x20, 0x62]) bssKernel).1.tasks 1).userAddressSpace.userTableSlot = slot
    ∧ ArgumentsPacked image [0x61, 0x20, 0x62]
      ((schedulerCreateUserTaskFromImage bssLayout imageSymbols none (some wordImage)
        (some [0x61, 0x20, 0x62]) bssKernel).1.tasks 1)
      (dataBytes (schedulerCreateUserTaskFromImage bssLayout imageSymbols none (some wordImage)
        (some [0x61, 0x20, 0x62]) bssKernel).1.spaces slot) :=
  (arguments_packed bssLayout imageSymbols none (some wordImage) (some [0x61, 0x20, 0x62])).1
    bssKernel
    _ 1 (Prod.ext rfl (by decide +kernel))

end SaturnOS
