import UT612.Model.Run
import UT612.Proof.Udev.Open

/-!
# The list of all devices

`printAllHidDevices` prints a paragraph for every device that `hid_enumerate` lists, in their order,
and frees the list. A string that libudev does not have is a null pointer in its record, which `%s`
and `%ls` are not defined for.
-/

namespace UT612

open Memory Assertion LinkedList

variable (A : Allocator Block) (locale : Locale)

/-- All strings that are printed of a device are there. -/
def ListedDevice.Printable (d : ListedDevice) : Prop :=
  d.path ≠ none ∧ d.manufacturerString ≠ none ∧ d.productString ≠ none

instance (d : ListedDevice) : Decidable d.Printable := inferInstanceAs (Decidable (_ ∧ _ ∧ _))

/-- The paragraph about a device. -/
def ListedDevice.describe (d : ListedDevice) : Text :=
  deviceFound d.vendorId d.productId (d.path.getD []) (locale.putWide d.serialNumber) ++
    "\n".toList ++ manufacturerLine (locale.putWide (d.manufacturerString.getD [])) ++
    productLine (locale.putWide (d.productString.getD [])) ++ releaseLine d.releaseNumber ++
    interfaceLine d.interfaceNumber ++ "\n".toList

theorem out_out (con : Console) (s t : Text) : (con.out s).out t = con.out (s ++ t) := by
  rw [Console.out, Console.out, Console.out, List.append_assoc]

/-! ### Printing strings -/

theorem triple_printfString (a : Nat) (s : Text) :
    Triple (stringAt a (some s)) (printfString a) fun t =>
      fact (t = s) * stringAt a (some s) := by
  refine Triple.of_all (fun m hm => hm.1.ne') fun ha => ?_
  rw [printfString, if_neg ha]
  exact triple_charsAt a s

theorem triple_printfWide (a : Nat) (s : Text) :
    Triple (wideStringAt a (some s)) (printfWide locale a) fun t =>
      fact (t = locale.putWide s) * wideStringAt a (some s) := by
  refine Triple.of_all (fun m hm => hm.1.ne') fun ha => ?_
  rw [printfWide, if_neg ha]
  exact Triple.look dvd_rfl (triple_wideAt a s) (Triple.value _ _)

theorem fails_printfString (a : Nat) : Fails (stringAt a none) (printfString a) := by
  refine Fails.of_all (fun m hm => hm.1) fun ha => ?_
  rw [printfString, if_pos ha]
  exact Fails.wrong _ _

theorem fails_printfWide (a : Nat) : Fails (wideStringAt a none) (printfWide locale a) := by
  refine Fails.of_all (fun m hm => hm.1) fun ha => ?_
  rw [printfWide, if_pos ha]
  exact Fails.wrong _ _

/-! ### Printing a record -/

theorem triple_printHidDevice {d : ListedDevice} (hd : d.Printable) (a next : Nat) (con : Console) :
    Triple (recordAt a next d) (printHidDevice locale a con) fun r =>
      fact (r = (some next, con.out (d.describe locale))) * recordAt a next d := by
  obtain ⟨hpath, hmanufacturer, hproduct⟩ := hd
  obtain ⟨path, hpath⟩ := Option.ne_none_iff_exists'.mp hpath
  obtain ⟨manufacturer, hmanufacturer⟩ := Option.ne_none_iff_exists'.mp hmanufacturer
  obtain ⟨product, hproduct⟩ := Option.ne_none_iff_exists'.mp hproduct
  refine Triple.of_exist fun p => ?_
  suffices hpinned : Triple (pinnedAt a next (p, d)) (printHidDevice locale a con) fun r =>
      fact (r = (some next, con.out (d.describe locale))) * pinnedAt a next (p, d) from
    hpinned.post fun r => mul_mono le_rfl (le_recordAt a next d p)
  refine Triple.look (info_dvd a next p d) (triple_infoAt a _) ?_
  refine triple_known (triple_known ?_)
  refine Triple.look (hpath ▸ path_dvd a next p d) (triple_known (triple_printfString _ _)) ?_
  refine Triple.look (serialNumber_dvd a next p d) (triple_known (triple_printfWide locale _ _)) ?_
  refine Triple.look (hmanufacturer ▸ manufacturerString_dvd a next p d)
    (triple_known (triple_printfWide locale _ _)) ?_
  refine Triple.look (hproduct ▸ productString_dvd a next p d)
    (triple_known (triple_printfWide locale _ _)) ?_
  refine triple_known (triple_known (triple_known ?_))
  simp only [out_out, ListedDevice.describe, hpath, hmanufacturer, hproduct, Option.getD_some,
    List.append_assoc]
  exact Triple.value _ _

theorem fails_known {α γ : Type} {P : Assertion Block} {x : α} {f : α → HidProgram γ}
    (h : Fails P (f x)) : Fails P (known (some x) >>= f) := h

/-- The first string that is not there is not printed. -/
theorem fails_printHidDevice {d : ListedDevice} (hd : ¬ d.Printable) (a next : Nat) (con : Console) :
    Fails (recordAt a next d) (printHidDevice locale a con) := by
  refine Fails.of_exist fun p => ?_
  change Fails (pinnedAt a next (p, d)) _
  refine Fails.look (info_dvd a next p d) (triple_infoAt a _) (fails_known (fails_known ?_))
  cases hpath : d.path with
  | none =>
      have hnull := fails_known (x := p.path) (fails_printfString p.path)
      exact (hnull.of_dvd (hpath ▸ path_dvd a next p d)).first _
  | some path =>
      refine Fails.look (hpath ▸ path_dvd a next p d) (triple_known (triple_printfString _ _)) ?_
      refine Fails.look (serialNumber_dvd a next p d) (triple_known (triple_printfWide locale _ _)) ?_
      cases hmanufacturer : d.manufacturerString with
      | none =>
          have hnull := fails_known (x := p.manufacturerString) (fails_printfWide locale _)
          exact (hnull.of_dvd (hmanufacturer ▸ manufacturerString_dvd a next p d)).first _
      | some manufacturer =>
          refine Fails.look (hmanufacturer ▸ manufacturerString_dvd a next p d)
            (triple_known (triple_printfWide locale _ _)) ?_
          cases hproduct : d.productString with
          | none =>
              have hnull := fails_known (x := p.productString) (fails_printfWide locale _)
              exact (hnull.of_dvd (hproduct ▸ productString_dvd a next p d)).first _
          | some product =>
              have hprintable : d.Printable := by
                simp [ListedDevice.Printable, hpath, hmanufacturer, hproduct]
              exact absurd hprintable hd

/-! ### The whole list -/

/-- What `printAllHidDevices` prints. -/
def listing (ds : List ListedDevice) (con : Console) : Console :=
  (con.out (ds.flatMap (ListedDevice.describe locale))).out "--------------------------------\n".toList

theorem foldl_out (ds : List ListedDevice) (con : Console) :
    ds.foldl (fun con d => con.out (d.describe locale)) con =
      con.out (ds.flatMap (ListedDevice.describe locale)) := by
  induction ds generalizing con with
  | nil => exact (congrArg (Console.mk · con.cerr con.clockReads) (List.append_nil con.cout)).symm
  | cons d ds ih => rw [List.foldl_cons, ih, out_out, List.flatMap_cons]

theorem triple_printHidDevices {ds : List ListedDevice} (h : ∀ d ∈ ds, d.Printable) (devs : Nat)
    (con : Console) :
    Triple (segment recordAt ds devs 0) (walk (printHidDevice locale) devs con) fun con' =>
      fact (con' = con.out (ds.flatMap (ListedDevice.describe locale))) *
        segment recordAt ds devs 0 := by
  rw [← foldl_out, ← scan_all]
  apply triple_walk_scan address_of_recordAt
  intro d hd a next con
  exact triple_printHidDevice locale (h d hd) a next con

theorem fails_printHidDevices {ds : List ListedDevice} (h : ¬ ∀ d ∈ ds, d.Printable) (devs : Nat)
    (con : Console) :
    Fails (segment recordAt ds devs 0) (walk (printHidDevice locale) devs con) := by
  exact fails_walk address_of_recordAt
    (fun d hd a next con => triple_printHidDevice locale hd a next con)
    (fun d hd a next con => fails_printHidDevice locale hd a next con) h devs con

section All

variable (kernel : Kernel) {udev : Option (List HidrawDevice)}

theorem triple_printAllHidDevices (hreadable : ∀ raw ∈ udev.getD [], raw.Readable)
    (hprintable : ∀ d ∈ listedDevices locale.mbstowcs 0 0 (udev.getD []), d.Printable)
    (con : Console) :
    Triple 1 (printAllHidDevices A locale kernel udev con) fun con' =>
      fact (con' = listing locale (listedDevices locale.mbstowcs 0 0 (udev.getD []))
        (enumerationConsole kernel udev
          (con.out "\n--- List of all HID devices: ---\n".toList))) *
        strings (lostStrings (udev.getD [])) := by
  refine (triple_hidEnumerate A locale.mbstowcs 0 0 hreadable _).bind fun r => ?_
  obtain ⟨devs, con'⟩ := r
  refine Triple.of_fact fun hcon => ?_
  obtain rfl : con' = enumerationConsole kernel udev _ := hcon
  refine (triple_printHidDevices locale hprintable devs _).step_value ?_
  refine (triple_hidFreeEnumeration _ devs).step fun _ => ?_
  rw [one_mul]
  exact Triple.value _ _

theorem fails_printAllHidDevices (h : ¬ ((∀ raw ∈ udev.getD [], raw.Readable) ∧
      ∀ d ∈ listedDevices locale.mbstowcs 0 0 (udev.getD []), d.Printable)) (con : Console) :
    Fails 1 (printAllHidDevices A locale kernel udev con) := by
  by_cases hreadable : ∀ raw ∈ udev.getD [], raw.Readable
  · have hprintable := fun hprintable => h ⟨hreadable, hprintable⟩
    refine Fails.later (triple_hidEnumerate A locale.mbstowcs 0 0 hreadable _) fun r => ?_
    refine Fails.of_fact fun _ => ?_
    exact ((fails_printHidDevices locale hprintable r.1 r.2).first _).frame _
  · exact (fails_hidEnumerate A locale.mbstowcs 0 0 hreadable _).first _

/-- **All devices.** The list is printed without a use of a null pointer exactly if every HID device
has the attribute `uevent` and every device listed has a node, a manufacturer and a product. Then it
has a paragraph for each of them, and the memory is what it was but for the copies left behind. -/
theorem printAllHidDevices_iff (m : Store Block) (con : Console) :
    ((∃ r, printAllHidDevices A locale kernel udev con m = .ok r) ↔
      (∀ raw ∈ udev.getD [], raw.Readable) ∧
        ∀ d ∈ listedDevices locale.mbstowcs 0 0 (udev.getD []), d.Printable) ∧
    ∀ con' m', printAllHidDevices A locale kernel udev con m = .ok (con', m') →
      con' = listing locale (listedDevices locale.mbstowcs 0 0 (udev.getD []))
        (enumerationConsole kernel udev
          (con.out "\n--- List of all HID devices: ---\n".toList)) ∧
      ∃ lost, lost.Disjoint m ∧ m' = lost ∪ m ∧ strings (lostStrings (udev.getD [])) lost := by
  have hdefined : (∃ r, printAllHidDevices A locale kernel udev con m = .ok r) ↔
      (∀ raw ∈ udev.getD [], raw.Readable) ∧
        ∀ d ∈ listedDevices locale.mbstowcs 0 0 (udev.getD []), d.Printable :=
    defined_iff (fun h => triple_printAllHidDevices A locale kernel h.1 h.2 con)
      (fun h => fails_printAllHidDevices A locale kernel h con) m
  refine ⟨hdefined, fun con' m' hrun => ?_⟩
  obtain ⟨hreadable, hprintable⟩ := hdefined.mp ⟨_, hrun⟩
  have hresult := (triple_printAllHidDevices A locale kernel hreadable hprintable con).result hrun
  rw [mul_assoc, fact_mul_apply] at hresult
  exact ⟨hresult.1, mul_exactly.mp hresult.2⟩

end All

end UT612
