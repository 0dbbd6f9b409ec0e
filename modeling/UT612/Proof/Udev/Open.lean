import UT612.Proof.Hid.Descriptor
import UT612.Proof.Udev.Enumerate

/-!
# Opening the device

`hid_open` lists the devices, opens the first that has the numbers it is asked for by the path in its
record, and frees the list. What is left in memory is the handle, if there is one, and what
`parse_uevent_info` has left behind.
-/

namespace UT612

open Memory Assertion LinkedList

/-! ### Freeing the list -/

theorem triple_freeDeviceInfo (a next : Nat) (d : ListedDevice) (s : Unit) :
    Triple (recordAt a next d) (freeDeviceInfo a s) fun r => fact (r = (some next, ())) * 1 := by
  refine Triple.of_exist fun p => ?_
  refine (triple_infoAt a _).step_value ?_
  refine triple_known (triple_known ?_)
  rw [pointersAt]
  refine Triple.reorder (stringAt p.path d.path * (wideStringAt p.serialNumber (some d.serialNumber) *
    (wideStringAt p.manufacturerString d.manufacturerString *
      (wideStringAt p.productString d.productString *
        cell a (Block.info (recordOf p d next)))))) (by ac_rfl) ?_
  refine (triple_free_stringAt _ _).step fun _ => triple_known ?_
  rw [one_mul]
  refine (triple_free_wideStringAt _ _).step fun _ => triple_known ?_
  rw [one_mul]
  refine (triple_free_wideStringAt _ _).step fun _ => triple_known ?_
  rw [one_mul]
  refine (triple_free_wideStringAt _ _).step fun _ => ?_
  rw [one_mul]
  refine (triple_free a _).bind fun _ => ?_
  exact Triple.value 1 _

/-- **A list is freed as a whole**, each block of it once. -/
theorem triple_hidFreeEnumeration (ds : List ListedDevice) (devs : Nat) :
    Triple (segment recordAt ds devs 0) (hidFreeEnumeration devs) fun _ => 1 := by
  have hwalk : Triple (segment recordAt ds devs 0) (walk freeDeviceInfo devs ()) fun r =>
      fact (r = ds.foldl (fun _ _ => ()) ()) * 1 :=
    triple_walk_free address_of_recordAt triple_freeDeviceInfo ds devs ()
  refine hwalk.post fun r => ?_
  rw [fact_mul_of (Subsingleton.elim r _)]

/-- **What is never freed.** When a list has been made and freed, the memory has grown by a block for
every line of a uevent that another with the same string comes after, and by no others. -/
theorem hidEnumerate_leaks (A : Allocator Block) (mbstowcs : Text → Option Text)
    (vendorId productId : Nat) (kernel : Kernel) (udev : Option (List HidrawDevice))
    (m : Store Block) (con : Console) :
    ((∃ r, hidEnumerate A mbstowcs kernel udev vendorId productId con m = .ok r) ↔
      ∀ raw ∈ udev.getD [], raw.Readable) ∧
    ∀ devs con' m', hidEnumerate A mbstowcs kernel udev vendorId productId con m =
        .ok ((devs, con'), m') →
      ∃ m'', hidFreeEnumeration devs m' = .ok ((), m'') ∧
        (∀ a ∈ m, m''.lookup a = m.lookup a) ∧
        m''.keys.card = m.keys.card + ((udev.getD []).map HidrawDevice.repeated).sum ∧
        (m'' = m ↔ ∀ raw ∈ udev.getD [], raw.repeated = 0) := by
  have hdefined : (∃ r, hidEnumerate A mbstowcs kernel udev vendorId productId con m = .ok r) ↔
      ∀ raw ∈ udev.getD [], raw.Readable :=
    defined_iff (fun h => triple_hidEnumerate A mbstowcs vendorId productId h con)
      (fun h => fails_hidEnumerate A mbstowcs vendorId productId h con) m
  refine ⟨hdefined, fun devs con' m' hrun => ?_⟩
  have hresult := (triple_hidEnumerate A mbstowcs vendorId productId
    (hdefined.mp ⟨_, hrun⟩) con).result hrun
  rw [mul_assoc, fact_mul_apply, mul_assoc] at hresult
  obtain ⟨_, m'', hfree, hm''⟩ := triple_hidFreeEnumeration _ devs _ m' hresult.2
  rw [one_mul] at hm''
  obtain ⟨lost, hdisjoint, rfl, hlost⟩ := mul_exactly.mp hm''
  have hcard := card_of_strings hlost
  rw [length_lostStrings] at hcard
  refine ⟨_, hfree, fun a ha => ?_, ?_, ?_⟩
  · exact Finmap.lookup_union_right fun hmem => hdisjoint a hmem ha
  · rw [card_union hdisjoint, hcard, Nat.add_comm]
  · rw [union_eq_right_iff hdisjoint, hcard, List.sum_eq_zero_iff_forall_eq_nat]
    exact List.forall_mem_map

/-! ### Searching it -/

/-- A device that is asked for, with any serial number if none is given. -/
def ListedDevice.matches (vendorId productId : Nat) (serialNumber : Option Text)
    (d : ListedDevice) : Bool :=
  d.vendorId = vendorId ∧ d.productId = productId ∧
    (serialNumber = none ∨ serialNumber = some d.serialNumber)

section Search

variable (vendorId productId : Nat) (serialNumber : Option Text)

def matchStep (s : Nat) (x : Pointers × ListedDevice) : Bool × Nat :=
  if x.2.matches vendorId productId serialNumber then (false, x.1.path) else (true, s)

theorem triple_matchDevice (a next : Nat) (x : Pointers × ListedDevice) (s : Nat) :
    Triple (pinnedAt a next x) (matchDevice vendorId productId serialNumber a s) fun r =>
      fact (r = (if (matchStep vendorId productId serialNumber s x).1 then some next else none,
        (matchStep vendorId productId serialNumber s x).2)) * pinnedAt a next x := by
  obtain ⟨p, d⟩ := x
  refine Triple.look (info_dvd a next p d) (triple_infoAt a _) ?_
  refine triple_known (triple_known (triple_known ?_))
  rw [matchStep]
  by_cases hids : d.vendorId = vendorId ∧ d.productId = productId
  · rw [if_pos hids]
    cases serialNumber with
    | none =>
        have hmatch : d.matches vendorId productId none = true := by
          simp [ListedDevice.matches, hids]
        rw [if_pos hmatch]
        exact triple_known (Triple.value _ _)
    | some serial =>
        refine triple_known (Triple.look (serialNumber_dvd a next p d) (triple_wideAt _ _) ?_)
        have hmatch : d.matches vendorId productId (some serial) = true ↔
            serial = d.serialNumber := by
          simp [ListedDevice.matches, hids]
        by_cases hserial : serial = d.serialNumber
        · rw [if_pos hserial, if_pos (hmatch.mpr hserial)]
          exact triple_known (Triple.value _ _)
        · rw [if_neg hserial, if_neg fun h => hserial (hmatch.mp h)]
          exact Triple.value _ _
  · have hmatch : ¬ d.matches vendorId productId serialNumber = true := by
      simp only [ListedDevice.matches, decide_eq_true_eq]
      exact fun h => hids ⟨h.1, h.2.1⟩
    rw [if_neg hids, if_neg hmatch]
    exact Triple.value _ _

/-- The search finds the path of the first device that is asked for. -/
theorem triple_search (ys : List (Pointers × ListedDevice)) (devs : Nat) :
    Triple (segment pinnedAt ys devs 0) (walk (matchDevice vendorId productId serialNumber) devs 0)
      fun path =>
        fact (path = ((ys.find? fun y => y.2.matches vendorId productId serialNumber).map
          fun y => y.1.path).getD 0) * segment pinnedAt ys devs 0 := by
  have hscan := scan_find (fun y : Pointers × ListedDevice =>
    y.2.matches vendorId productId serialNumber) (fun y => y.1.path) 0 ys
  rw [← hscan]
  refine triple_walk_scan address_of_pinnedAt (fun y _ a next s => ?_) devs 0
  exact triple_matchDevice vendorId productId serialNumber a next y s

end Search

/-! ### Opening it -/

/-- What the reading of a report descriptor comes to. -/
theorem readDescriptor_ok (kernel : Kernel) (answer : OpenAnswer) (con : Console) :
    ∃ numbered con', readDescriptor kernel answer con = .ok (numbered, con') := by
  rw [readDescriptor]
  cases answer.desc with
  | failed errno => exact ⟨_, _, rfl⟩
  | done res desc =>
      have hsize : answer.size ≤ (descriptorValue desc).length := by
        rw [descriptorValue, List.length_take, List.length_append, List.length_replicate,
          Nat.min_eq_left (Nat.le_add_left _ _), OpenAnswer.size]
        cases answer.descSize with
        | failed errno => exact Nat.zero_le _
        | done res size => exact Nat.le_of_lt_succ size.isLt
      obtain ⟨numbered, hnumbered⟩ := usesNumberedReports_ok hsize
      refine ⟨numbered, warnDescSize kernel answer con, ?_⟩
      simp only [hnumbered]
      rfl

theorem triple_evaluate {α γ : Type} {P : Assertion Block} {x : α} {f : α → HidProgram γ}
    {S : γ → Assertion Block} (h : Triple P (f x) S) : Triple P (evaluate (.ok x) >>= f) S := h

theorem triple_deviceAt (a : Nat) (dev : HidDevice) :
    Triple (cell a (Block.device dev)) (deviceAt a) fun d =>
      fact (d = dev) * cell a (Block.device dev) :=
  triple_load_as (f := Block.asDevice) rfl a

section Open

variable (A : Allocator Block) (kernel : Kernel) (openFile : Text → OpenAnswer)

/-- What the system answers about the file at a path, if there is one and it can be opened. -/
def openedDevice (path : Option Text) : Option OpenAnswer :=
  (path.map openFile).filter fun answer => 0 < answer.fd

theorem openedDevice_of_pos {s : Text} (h : 0 < (openFile s).fd) :
    openedDevice openFile (some s) = some (openFile s) := by
  simp [openedDevice, h]

theorem openedDevice_of_not_pos {s : Text} (h : ¬ 0 < (openFile s).fd) :
    openedDevice openFile (some s) = none := by
  simp [openedDevice, not_lt.mp h]

/-- The handle of an open device, if it is open, and what has been printed about it. -/
def handleAt (opened : Option OpenAnswer) (con : Console) (r : Nat × Console) : Assertion Block :=
  match opened with
  | none => fact (r = (0, con))
  | some answer =>
      exist fun numbered : Bool =>
        fact (readDescriptor kernel answer con = .ok (numbered, r.2)) *
          cell r.1 (Block.device ⟨answer.fd, true, numbered⟩)

theorem triple_hidOpenPath (path : Nat) (s : Text) (con : Console) :
    Triple (stringAt path (some s)) (hidOpenPath A kernel openFile path con) fun r =>
      handleAt kernel (openedDevice openFile (some s)) (hidInit kernel con).2 r *
        stringAt path (some s) := by
  refine (triple_alloc A (Block.device newHidDevice)).call fun dev => ?_
  rw [mul_comm]
  refine (triple_charsAt path s).step_value ?_
  rw [mul_comm]
  refine (triple_store dev _ (Block.device { newHidDevice with deviceHandle := (openFile s).fd })).step
    fun _ => ?_
  by_cases hfd : 0 < (openFile s).fd
  · obtain ⟨numbered, con', hread⟩ := readDescriptor_ok kernel (openFile s) (hidInit kernel con).2
    rw [if_pos hfd, hread, openedDevice_of_pos openFile hfd]
    refine triple_evaluate ?_
    refine (triple_store dev _ (Block.device ⟨(openFile s).fd, true, numbered⟩)).step fun _ => ?_
    refine (Triple.pure (Q := fun r => handleAt kernel (some (openFile s)) _ r * _) (dev, con')).pre ?_
    refine mul_mono (le_trans ?_ (le_exist _ numbered)) le_rfl
    rw [fact_mul_of hread]
  · rw [if_neg hfd, openedDevice_of_not_pos openFile hfd]
    refine (triple_free dev _).step fun _ => ?_
    rw [one_mul]
    exact Triple.value _ (0, (hidInit kernel con).2)

/-- What has been printed before a device is opened, if one is. -/
def consoleAt (path : Option Text) (con : Console) : Console :=
  match path with
  | none => con
  | some _ => (hidInit kernel con).2

theorem triple_openDevice (a : Nat) (path : Option Text) (con : Console) :
    Triple (stringAt a path) (openDevice A kernel openFile a con) fun r =>
      handleAt kernel (openedDevice openFile path) (consoleAt kernel path con) r *
        stringAt a path := by
  cases path with
  | none =>
      refine Triple.of_all (fun m hm => hm.1) fun ha => ?_
      rw [openDevice, if_neg (not_not.mpr ha)]
      exact Triple.value _ _
  | some s =>
      refine Triple.of_all (fun m hm => hm.1.ne') fun ha => ?_
      rw [openDevice, if_pos ha]
      exact triple_hidOpenPath A kernel openFile a s con

variable (vendorId productId : Nat) (serialNumber : Option Text)

/-- The path of the first device of a list that is asked for, if it has one. -/
def pathToOpen (ds : List ListedDevice) : Option Text :=
  (ds.find? (ListedDevice.matches vendorId productId serialNumber)).bind ListedDevice.path

/-- The path is still there when it is used. -/
theorem triple_openFound (ys : List (Pointers × ListedDevice)) (devs : Nat) (con : Console) :
    Triple (segment pinnedAt ys devs 0)
      (openDevice A kernel openFile
        (((ys.find? fun y => y.2.matches vendorId productId serialNumber).map
          fun y => y.1.path).getD 0) con) fun r =>
      handleAt kernel (openedDevice openFile
          (pathToOpen vendorId productId serialNumber (ys.map Prod.snd)))
        (consoleAt kernel (pathToOpen vendorId productId serialNumber (ys.map Prod.snd)) con) r *
        segment pinnedAt ys devs 0 := by
  have hfind : pathToOpen vendorId productId serialNumber (ys.map Prod.snd) =
      (ys.find? fun y => y.2.matches vendorId productId serialNumber).bind fun y => y.2.path := by
    rw [pathToOpen, List.find?_map, Option.bind_map]
    rfl
  rw [hfind]
  cases hy : ys.find? fun y => y.2.matches vendorId productId serialNumber with
  | none =>
      have hnull : stringAt 0 none = 1 := fact_of rfl
      have hopen := triple_openDevice A kernel openFile 0 none con
      rw [hnull] at hopen
      refine Triple.reorder (1 * segment pinnedAt ys devs 0) (one_mul _).symm ?_
      refine (hopen.frame _).post fun r => ?_
      rw [mul_one]
      exact le_rfl
  | some y =>
      obtain ⟨-, front, back, rfl, -⟩ := List.find?_eq_some_iff_append.mp hy
      rw [segment_around]
      refine Triple.of_exist fun p => ?_
      obtain ⟨rest, hrest⟩ := path_dvd p.1 p.2 y.1 y.2
      change pinnedAt p.1 p.2 y = stringAt y.1.path y.2.path * rest at hrest
      rw [hrest, mul_assoc]
      refine ((triple_openDevice A kernel openFile y.1.path y.2.path con).frame _).post fun r => ?_
      rw [mul_assoc, ← mul_assoc (stringAt _ _), ← hrest]
      exact mul_mono le_rfl (le_exist (fun p : Nat × Nat =>
        pinnedAt p.1 p.2 y * (segment pinnedAt front devs p.1 * segment pinnedAt back p.2 0)) p)

/-- **Opening.** From any memory `hid_open` opens the first device that is asked for and has a path,
if there is one. Besides its handle there is nothing new in the memory but the copies left behind. -/
theorem triple_hidOpen {mbstowcs : Text → Option Text} {udev : Option (List HidrawDevice)}
    (h : ∀ raw ∈ udev.getD [], raw.Readable) (con : Console) :
    Triple 1 (hidOpen A mbstowcs kernel udev openFile vendorId productId serialNumber con) fun r =>
      handleAt kernel (openedDevice openFile (pathToOpen vendorId productId serialNumber
          (listedDevices mbstowcs vendorId productId (udev.getD []))))
        (consoleAt kernel (pathToOpen vendorId productId serialNumber
          (listedDevices mbstowcs vendorId productId (udev.getD [])))
          (enumerationConsole kernel udev con)) r *
      strings (lostStrings (udev.getD [])) := by
  refine (triple_hidEnumerate A mbstowcs vendorId productId h con).bind fun r => ?_
  obtain ⟨devs, con'⟩ := r
  refine Triple.of_fact fun hcon => ?_
  obtain rfl : con' = enumerationConsole kernel udev con := hcon
  rw [segment_recordAt, exist_mul]
  refine Triple.of_exist fun p => ?_
  obtain ⟨ys, hys⟩ := p
  refine (triple_search vendorId productId serialNumber ys devs).step_value ?_
  refine (triple_openFound A kernel openFile vendorId productId serialNumber ys devs _).step
    fun r => ?_
  obtain ⟨handle, con'⟩ := r
  rw [hys]
  refine Triple.reorder (segment pinnedAt ys devs 0 * (handleAt kernel _ _ (handle, con') *
    strings (lostStrings (udev.getD [])))) (by ac_rfl) ?_
  have hlist : segment pinnedAt ys devs 0 ≤
      segment recordAt (listedDevices mbstowcs vendorId productId (udev.getD [])) devs 0 := by
    rw [segment_recordAt]
    exact le_exist (fun ys : {ys : List (Pointers × ListedDevice) // ys.map Prod.snd = _} =>
      segment pinnedAt ys.1 devs 0) ⟨ys, hys⟩
  refine ((triple_hidFreeEnumeration _ devs).pre hlist).step fun _ => ?_
  rw [one_mul]
  exact Triple.pure (Q := fun r => handleAt kernel _ _ r * strings _) (handle, con')

theorem fails_hidOpen {mbstowcs : Text → Option Text} {udev : Option (List HidrawDevice)}
    (h : ¬ ∀ raw ∈ udev.getD [], raw.Readable) (con : Console) :
    Fails 1 (hidOpen A mbstowcs kernel udev openFile vendorId productId serialNumber con) :=
  (fails_hidEnumerate A mbstowcs vendorId productId h con).first _

theorem triple_closeDevice (handle : Nat) (dev : HidDevice) :
    Triple (cell handle (Block.device dev)) (hidClose handle) fun _ => 1 := by
  refine Triple.of_all (fun m hm => hm.1.ne') fun hhandle => ?_
  rw [hidClose, if_neg hhandle]
  exact Triple.look dvd_rfl (triple_deviceAt handle dev) (triple_free handle _)

/-- Closing the device, if there is one. -/
theorem triple_hidClose (opened : Option OpenAnswer) (con : Console) (r : Nat × Console) :
    Triple (handleAt kernel opened con r) (hidClose r.1) fun _ => 1 := by
  cases opened with
  | none =>
      refine Triple.of_all (fun m hm => hm.1) fun hr => ?_
      rw [handleAt, fact_of hr, hr]
      exact Triple.pure (Q := fun _ => 1) ()
  | some answer =>
      refine Triple.of_exist fun numbered => ?_
      exact Triple.of_fact fun _ => triple_closeDevice r.1 _

/-- **Opening and closing.** `hid_open` does not go wrong exactly if every HID device has the attribute
`uevent`. It returns a new handle to the first device that is asked for, if the device has a path
that can be opened, and the null pointer otherwise. Once the handle is closed the memory is what it
was but for the copies left behind. -/
theorem hidOpen_iff (mbstowcs : Text → Option Text) (udev : Option (List HidrawDevice))
    (m : Store Block) (con : Console) :
    ((∃ r, hidOpen A mbstowcs kernel udev openFile vendorId productId serialNumber con m = .ok r) ↔
      ∀ raw ∈ udev.getD [], raw.Readable) ∧
    ∀ handle con' m',
      hidOpen A mbstowcs kernel udev openFile vendorId productId serialNumber con m =
        .ok ((handle, con'), m') →
      let path := pathToOpen vendorId productId serialNumber
        (listedDevices mbstowcs vendorId productId (udev.getD []))
      (openedDevice openFile path = none → handle = 0) ∧
      (∀ answer, openedDevice openFile path = some answer → handle ≠ 0 ∧ handle ∉ m ∧
        ∃ numbered, m'.lookup handle = some (.device ⟨answer.fd, true, numbered⟩) ∧
          readDescriptor kernel answer (consoleAt kernel path (enumerationConsole kernel udev con)) =
            .ok (numbered, con')) ∧
      ∃ lost, lost.Disjoint m ∧ hidClose handle m' = .ok ((), lost ∪ m) ∧
        strings (lostStrings (udev.getD [])) lost := by
  have hdefined : (∃ r, hidOpen A mbstowcs kernel udev openFile vendorId productId serialNumber con m
      = .ok r) ↔ ∀ raw ∈ udev.getD [], raw.Readable :=
    defined_iff (fun h => triple_hidOpen A kernel openFile vendorId productId serialNumber h con)
      (fun h => fails_hidOpen A kernel openFile vendorId productId serialNumber h con) m
  refine ⟨hdefined, fun handle con' m' hrun => ?_⟩
  have hresult := (triple_hidOpen A kernel openFile vendorId productId serialNumber
    (hdefined.mp ⟨_, hrun⟩) con).result hrun
  refine ⟨fun hnone => ?_, fun answer hsome => ?_, ?_⟩
  · rw [hnone, mul_assoc] at hresult
    obtain ⟨hr, -⟩ := fact_mul_apply.mp hresult
    exact congrArg Prod.fst hr
  · rw [hsome, handleAt, exist_mul, exist_mul] at hresult
    obtain ⟨numbered, hresult⟩ := hresult
    rw [mul_assoc, mul_assoc, fact_mul_apply] at hresult
    obtain ⟨hread, hresult⟩ := hresult
    refine ⟨(cell_mul_pos hresult).ne', ?_, numbered, cell_mul_lookup hresult, hread⟩
    rw [← mul_assoc] at hresult
    exact notMem_of_cell_mul hresult
  · rw [mul_assoc] at hresult
    obtain ⟨_, m'', hclose, hm''⟩ := triple_hidClose kernel _ _ (handle, con') _ m' hresult
    rw [one_mul] at hm''
    obtain ⟨lost, hdisjoint, rfl, hlost⟩ := mul_exactly.mp hm''
    exact ⟨lost, hdisjoint, hclose, hlost⟩

end Open

end UT612
