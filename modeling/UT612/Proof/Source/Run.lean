import UT612.Proof.Source.DeviceInfo
import UT612.Proof.Udev.Format

/-!
# A run

`run` as a function of what the system answers, without a memory: the devices are a list, an open
device is what is known of it, and the reads are what they bring. The code's `run` comes to the same
from any memory, and to nothing where it has no value, and leaves the memory as it was but for the
copies that the reading of uevents leaves behind.
-/

namespace UT612

open Memory Assertion

variable (A : Allocator Block) (locale : Locale) (now : Nat → TimeOfDay) (kernel : Kernel)

/-! ### Without a device -/

instance (raw : HidrawDevice) : Decidable raw.Readable :=
  inferInstanceAs (Decidable (_ ≠ _))

/-- What `printAllHidDevices` comes to. -/
def listingOf (udev : Option (List HidrawDevice)) (con : Console) : Option Console :=
  if (∀ raw ∈ udev.getD [], raw.Readable) ∧
      ∀ d ∈ listedDevices locale.mbstowcs 0 0 (udev.getD []), d.Printable then
    some (listing locale (listedDevices locale.mbstowcs 0 0 (udev.getD []))
      (enumerationConsole kernel udev (con.out "\n--- List of all HID devices: ---\n".toList)))
  else none

theorem computes_printAllHidDevices (udev : Option (List HidrawDevice)) (con : Console) :
    Computes 1 (printAllHidDevices A locale kernel udev con) (listingOf locale kernel udev con)
      (strings (lostStrings (udev.getD []))) := by
  rw [listingOf]
  split_ifs with h
  · exact Computes.of_triple (triple_printAllHidDevices A locale kernel h.1 h.2 con)
  · exact Computes.of_fails (fails_printAllHidDevices A locale kernel h con)

/-- What `run` says when there is no device. -/
def unconnectedOf (answers : Answers) (source : UT612ByteSource) (con : Console) : Option Console :=
  if source.verbose then
    (listingOf locale kernel answers.foundAgain (con.err unableToConnect)).bind fun con =>
      some (con.out troubleshooting)
  else some (con.err unableToConnect)

def lostUnconnected (answers : Answers) (source : UT612ByteSource) : List Text :=
  if source.verbose then lostStrings (answers.foundAgain.getD []) else []

theorem computes_runUnconnected (answers : Answers) (source : UT612ByteSource) (con : Console) :
    Computes 1 (runUnconnected A locale kernel answers source con)
      (unconnectedOf locale kernel answers source con)
      (strings (lostUnconnected answers source)) := by
  rw [runUnconnected, unconnectedOf, lostUnconnected]
  split_ifs with hverbose
  · refine (computes_printAllHidDevices A locale kernel _ _).bind fun con _ => ?_
    exact Computes.pure _ _
  · exact Computes.pure 1 _

/-! ### With a device -/

/-- What the main loop comes to. -/
def roundsOf (dev : HidDevice) (source : UT612ByteSource) (rounds : List RoundAnswer) (heap : Heap)
    (con : Console) : Option (Heap × Console) :=
  let chops := chopsReports kernel (hidInit kernel con).1 dev
  if ∀ answer ∈ rounds, answer.overruns chops = false then
    (mainLoop now source (rounds.map (RoundAnswer.result chops)) heap con).toOption
  else none

theorem toOption_runRounds (kernelVersion : Nat) (dev : HidDevice) (source : UT612ByteSource)
    (rounds : List RoundAnswer) (heap : Heap) (con : Console) :
    let chops := chopsReports kernel kernelVersion dev
    (runRounds now kernel kernelVersion dev source rounds heap con).toOption =
      if ∀ answer ∈ rounds, answer.overruns chops = false then
        (mainLoop now source (rounds.map (RoundAnswer.result chops)) heap con).toOption
      else none := by
  intro chops
  split_ifs with h
  · rw [runRounds_eq now kernel kernelVersion dev source h]
  · induction rounds generalizing heap con with
    | nil => exact absurd (List.forall_mem_nil _) h
    | cons answer rounds ih =>
        rw [runRounds, runRound_eq]
        by_cases hoverruns : answer.overruns chops = true
        · rw [if_pos hoverruns]
          rfl
        · have hrounds : ¬ ∀ answer ∈ rounds, answer.overruns chops = false := fun hrounds =>
            h (List.forall_mem_cons.mpr ⟨Bool.eq_false_of_not_eq_true hoverruns, hrounds⟩)
          rw [if_neg hoverruns]
          cases mainLoopRound now source (answer.result chops) heap con with
          | error fault => rfl
          | ok s => exact ih s.1 s.2 hrounds

theorem computes_runLoop (dev : HidDevice) (source : UT612ByteSource) (handle : Nat)
    (rounds : List RoundAnswer) (heap : Heap) (con : Console) :
    Computes (cell handle (Block.device dev))
      (runLoop now kernel (hidInit kernel con).1 handle source rounds heap con)
      (roundsOf now kernel dev source rounds heap con) (cell handle (Block.device dev)) := by
  rw [roundsOf, ← toOption_runRounds]
  cases hrounds : runRounds now kernel (hidInit kernel con).1 dev source rounds heap con with
  | error fault => exact Computes.of_fails (fails_runLoop hrounds)
  | ok r => exact Computes.of_triple (triple_runLoop hrounds)

/-- What has been printed when the main loop starts. -/
def enabledConsole (feature : List UInt8 → IoctlAnswer Unit) (con : Console) : Console :=
  (enableUartForUT612 kernel feature true (setupUartForUT612 kernel feature con).2).2

/-- What has been printed when `run` returns. -/
def killedConsole (feature : List UInt8 → IoctlAnswer Unit) (con : Console) : Console :=
  (enableUartForUT612 kernel feature false con).2.out "\nKilled by user\n".toList

def describedOf (answers : Answers) (source : UT612ByteSource) (con : Console) : Option Console :=
  if source.verbose then deviceInfoOf locale answers.node con else some con

def lostDescribed (answers : Answers) (source : UT612ByteSource) : List Text :=
  if source.verbose then lostOfDevice answers.node else []

theorem computes_describeDevice (answers : Answers) (source : UT612ByteSource) (con : Console) :
    Computes 1 (describeDevice A locale answers source con) (describedOf locale answers source con)
      (strings (lostDescribed answers source)) := by
  rw [describeDevice, describedOf, lostDescribed]
  split_ifs with hverbose
  · exact computes_printHidDeviceInfo A locale answers.node con
  · exact Computes.pure 1 _

/-- What `run` comes to with an open device. -/
def connectedOf (answers : Answers) (source : UT612ByteSource) (dev : HidDevice) (heap : Heap)
    (con : Console) : Option (Heap × Console) :=
  (describedOf locale answers source con).bind fun con =>
  (roundsOf now kernel dev source answers.rounds heap
    (enabledConsole kernel answers.feature con)).bind fun r =>
  some (r.1, killedConsole kernel answers.feature r.2)

theorem computes_runConnected (answers : Answers) (source : UT612ByteSource) (dev : HidDevice)
    (handle : Nat) (heap : Heap) (con : Console) :
    Computes (cell handle (Block.device dev))
      (runConnected A locale now kernel answers source handle heap con)
      (connectedOf locale now kernel answers source dev heap con)
      (strings (lostDescribed answers source)) := by
  refine (computes_describeDevice A locale answers source con).call fun con _ => ?_
  have hdevice : cell handle (Block.device dev) ∣
      strings (lostDescribed answers source) * cell handle (Block.device dev) := dvd_mul_left _ _
  refine Computes.value hdevice (triple_deviceAt handle dev) ?_
  refine (Computes.look hdevice (computes_runLoop now kernel dev source handle _ heap _)).bind
    fun r _ => ?_
  refine Computes.value hdevice (triple_deviceAt handle dev) ?_
  rw [mul_comm]
  refine Computes.of_triple (Triple.step (triple_closeDevice handle dev) fun _ => ?_)
  rw [one_mul]
  exact Triple.value _ _

/-! ### All of it -/

/-- The devices that `run` looks for one to open in. -/
def meters (answers : Answers) : List ListedDevice :=
  listedDevices locale.mbstowcs vendorIdOfUT612 productIdOfUT612 (answers.found.getD [])

def meterPath (answers : Answers) : Option Text :=
  pathToOpen vendorIdOfUT612 productIdOfUT612 none (meters locale answers)

/-- What has been printed when `hid_open` comes to the report descriptor, or has no device. -/
def foundConsole (answers : Answers) (con : Console) : Console :=
  consoleAt kernel (meterPath locale answers)
    (enumerationConsole kernel answers.found (hidInit kernel con).2)

/-- What `run` comes to. -/
def runOf (answers : Answers) (source : UT612ByteSource) (heap : Heap) (con : Console) :
    Option (Int × Heap × Console) :=
  if ∀ raw ∈ answers.found.getD [], raw.Readable then
    match openedDevice answers.openFile (meterPath locale answers) with
    | none =>
        (unconnectedOf locale kernel answers source (foundConsole locale kernel answers con)).bind
          fun con => some (1, heap, con)
    | some answer =>
        (readDescriptor kernel answer (foundConsole locale kernel answers con)).toOption.bind
          fun d =>
        (connectedOf locale now kernel answers source ⟨answer.fd, true, d.1⟩ heap d.2).bind
          fun r => some (0, r)
  else none

/-- The copies that `run` leaves behind. -/
def lostInRun (answers : Answers) (source : UT612ByteSource) : List Text :=
  lostStrings (answers.found.getD []) ++
    match openedDevice answers.openFile (meterPath locale answers) with
    | none => lostUnconnected answers source
    | some _ => lostDescribed answers source

theorem computes_run (answers : Answers) (source : UT612ByteSource) (heap : Heap) (con : Console) :
    Computes 1 (run A locale now kernel answers source heap con)
      (runOf locale now kernel answers source heap con)
      (strings (lostInRun locale answers source)) := by
  rw [runOf, lostInRun]
  split_ifs with hreadable
  · refine Computes.after (triple_hidOpen A kernel answers.openFile vendorIdOfUT612
      productIdOfUT612 none hreadable _) fun r => ?_
    obtain ⟨handle, con'⟩ := r
    rw [strings_append]
    change Computes (handleAt kernel (openedDevice answers.openFile (meterPath locale answers))
      (foundConsole locale kernel answers con) (handle, con') * _) _ _ _
    -- the handle is null exactly if no device has been opened
    cases openedDevice answers.openFile (meterPath locale answers) with
    | none =>
        refine Computes.of_fact fun hr => ?_
        obtain ⟨rfl, rfl⟩ := Prod.mk.inj hr
        rw [if_pos rfl, mul_comm]
        refine (computes_runUnconnected A locale kernel answers source _).call fun con _ => ?_
        exact Computes.pure _ _
    | some answer =>
        rw [handleAt, exist_mul]
        refine Computes.of_exist fun numbered => ?_
        rw [mul_assoc]
        refine Computes.of_fact fun hread => ?_
        refine Computes.of_all (fun m hm => (cell_mul_pos hm).ne') fun hhandle => ?_
        show Computes _ _
          ((readDescriptor kernel answer (foundConsole locale kernel answers con)).toOption.bind _)
          (strings _ * strings (lostDescribed answers source))
        rw [if_neg hhandle, hread, mul_comm (strings _)]
        exact ((computes_runConnected A locale now kernel answers source _ handle heap con').frame
          _).bind fun r _ => Computes.pure _ _
  · exact Computes.of_fails ((fails_hidOpen A kernel answers.openFile vendorIdOfUT612
      productIdOfUT612 none hreadable _).first _)

/-- **Refinement.** From any memory `run` does not go wrong exactly if its abstract run has a value,
and comes to that. The memory is what it was but for the copies left behind: the device list, the
handle and the strings that are compared and printed have all been freed. -/
theorem run_refines (answers : Answers) (source : UT612ByteSource) (heap : Heap) (con : Console)
    (m : Store Block) :
    ((∃ r, run A locale now kernel answers source heap con m = .ok r) ↔
      (runOf locale now kernel answers source heap con).isSome) ∧
    ∀ r m', run A locale now kernel answers source heap con m = .ok (r, m') →
      runOf locale now kernel answers source heap con = some r ∧
      ∃ lost, lost.Disjoint m ∧ m' = lost ∪ m ∧ strings (lostInRun locale answers source) lost := by
  obtain ⟨hdefined, hresult⟩ :=
    (computes_run A locale now kernel answers source heap con).run m
  refine ⟨hdefined, fun r m' hrun => ?_⟩
  obtain ⟨hr, hm'⟩ := hresult r m' hrun
  exact ⟨hr, mul_exactly.mp hm'⟩

/-! ### When a run is defined -/

theorem hidInit_fst (con con' : Console) : (hidInit kernel con).1 = (hidInit kernel con').1 := by
  simp only [hidInit, detectKernelVersion]
  split
  · rfl
  · split <;> rfl

theorem isSome_toOption {α : Type} (x : Except Fault α) :
    x.toOption.isSome ↔ ∃ y, x = .ok y := by
  cases x with
  | error fault => exact ⟨nofun, nofun⟩
  | ok y => exact ⟨fun _ => ⟨y, rfl⟩, fun _ => rfl⟩

theorem isSome_roundsOf (clock : Clock) (dev : HidDevice) (source : UT612ByteSource)
    (rounds : List RoundAnswer) {heap : Heap} (hsinks : ∀ a ∈ source.byteSinks, heap a ≠ none)
    (con con' : Console) :
    (roundsOf clock.now kernel dev source rounds heap con).isSome ↔
      ∀ round ∈ rounds, round.Sound (chopsReports kernel (hidInit kernel con').1 dev) := by
  rw [roundsOf, ← toOption_runRounds, isSome_toOption, exists_runRounds_eq_ok_iff clock hsinks,
    hidInit_fst kernel con con']

theorem isSome_bind_some {α β : Type} (x : Option α) (f : α → β) :
    (x.bind fun y => some (f y)).isSome ↔ x.isSome := by
  cases x <;> rfl

theorem isSome_unconnectedOf (answers : Answers) (source : UT612ByteSource) (con : Console) :
    (unconnectedOf locale kernel answers source con).isSome ↔ (source.verbose = true →
      (∀ raw ∈ answers.foundAgain.getD [], raw.Readable) ∧
        ∀ d ∈ listedDevices locale.mbstowcs 0 0 (answers.foundAgain.getD []), d.Printable) := by
  rw [unconnectedOf]
  split_ifs with hverbose
  · rw [isSome_bind_some, listingOf]
    split_ifs with h
    · exact ⟨fun _ _ => h, fun _ => rfl⟩
    · exact ⟨nofun, fun h' => absurd (h' hverbose) h⟩
  · exact ⟨fun _ h => absurd h hverbose, fun _ => rfl⟩

theorem isSome_connectedOf (clock : Clock) (answers : Answers) (source : UT612ByteSource)
    (dev : HidDevice) {heap : Heap} (hsinks : ∀ a ∈ source.byteSinks, heap a ≠ none)
    (con con' : Console) :
    (connectedOf locale clock.now kernel answers source dev heap con).isSome ↔
      (source.verbose = true → Describable locale answers.node) ∧
        ∀ round ∈ answers.rounds,
          round.Sound (chopsReports kernel (hidInit kernel con').1 dev) := by
  have hdescribed : (describedOf locale answers source con).isSome ↔
      (source.verbose = true → Describable locale answers.node) := by
    rw [describedOf]
    split_ifs with hverbose
    · rw [isSome_deviceInfoOf]
      exact ⟨fun h _ => h, fun h => h hverbose⟩
    · exact ⟨fun _ h => absurd h hverbose, fun _ => rfl⟩
  rw [connectedOf, ← hdescribed]
  cases describedOf locale answers source con with
  | none => exact ⟨nofun, fun h => nomatch h.1⟩
  | some con'' =>
      rw [Option.bind_some, isSome_bind_some, isSome_roundsOf kernel clock dev source _ hsinks _ con']
      exact (and_iff_right rfl).symm

/-- **Runs without undefined behaviour.** On a working clock `run` does not go wrong exactly if every
HID device has the attribute `uevent`, what is printed of devices is there, with every string of an
open one ended in its array, and the length byte of every report counts bytes that have been received
and the report leaves room for the byte that is chopped off. -/
theorem run_defined_iff (clock : Clock) (answers : Answers) (source : UT612ByteSource) {heap : Heap}
    (hsinks : ∀ a ∈ source.byteSinks, heap a ≠ none) (con : Console) (m : Store Block) :
    (∃ r, run A locale clock.now kernel answers source heap con m = .ok r) ↔
      (∀ raw ∈ answers.found.getD [], raw.Readable) ∧
      (openedDevice answers.openFile (meterPath locale answers) = none → source.verbose = true →
        (∀ raw ∈ answers.foundAgain.getD [], raw.Readable) ∧
          ∀ d ∈ listedDevices locale.mbstowcs 0 0 (answers.foundAgain.getD []), d.Printable) ∧
      ∀ answer numbered con',
        openedDevice answers.openFile (meterPath locale answers) = some answer →
        readDescriptor kernel answer (foundConsole locale kernel answers con) =
          .ok (numbered, con') →
        (source.verbose = true → Describable locale answers.node) ∧
          ∀ round ∈ answers.rounds, round.Sound
            (chopsReports kernel (hidInit kernel con).1 ⟨answer.fd, true, numbered⟩) := by
  rw [((computes_run A locale clock.now kernel answers source heap con).run m).1, runOf]
  by_cases hreadable : ∀ raw ∈ answers.found.getD [], raw.Readable
  · rw [if_pos hreadable, and_iff_right hreadable]
    cases openedDevice answers.openFile (meterPath locale answers) with
    | none =>
        show ((unconnectedOf locale kernel answers source _).bind _).isSome ↔ _
        rw [isSome_bind_some, isSome_unconnectedOf]
        exact ⟨fun h => ⟨fun _ => h, fun _ _ _ hnone => nomatch hnone⟩, fun h => h.1 rfl⟩
    | some answer =>
        obtain ⟨numbered, con', hread⟩ :=
          readDescriptor_ok kernel answer (foundConsole locale kernel answers con)
        show ((readDescriptor kernel answer (foundConsole locale kernel answers con)).toOption.bind
          _).isSome ↔ _
        rw [hread]
        show ((connectedOf locale clock.now kernel answers source _ heap con').bind _).isSome ↔ _
        rw [isSome_bind_some, isSome_connectedOf locale kernel clock answers source _ hsinks con' con]
        constructor
        · intro h
          refine ⟨nofun, fun answer' numbered' con'' hanswer hread' => ?_⟩
          obtain rfl := Option.some.inj hanswer
          obtain ⟨rfl, rfl⟩ := Prod.mk.inj (Except.ok.inj (hread.symm.trans hread'))
          exact h
        · exact fun h => h.2 answer numbered con' rfl hread
  · rw [if_neg hreadable]
    exact ⟨nofun, fun h => absurd h.1 hreadable⟩

/-- A locale in which all strings are what they are. -/
def plainLocale : Locale := ⟨fun s => (s, true), id⟩

def plainKernel : Kernel where
  release := "4.4.0".toList
  versionCode a b c := ((a * 256 + b) * 256 + c).toNat
  strerror _ := "error".toList

/-- A meter at a node that can be opened. -/
def meterDevice : HidrawDevice where
  devNode := some "/dev/hidraw0".toList
  hidDev := some (some (putUevent meterUevent))
  usbDev := some ⟨none, none, none⟩
  intfDev := none

def meterFile : OpenAnswer := ⟨3, .done 0 2, .done 0 [0x85, 0x01]⟩

/-- What libudev says of its file when it is open. -/
def meterNode : DeviceNode where
  hidDev := some (some (putUevent meterUevent))
  usbDev := some fun
    | .manufacturer => some "Silicon Laboratories".toList
    | .product => some "CP2110".toList
    | .serial => none

/-- A session with a report of one byte and a timeout. -/
def meterAnswers : Answers where
  found := some [meterDevice]
  openFile _ := meterFile
  foundAgain := none
  node _ := some (some meterNode)
  feature _ := .done 64 ()
  rounds := [⟨.ready 1, .bytes [1, 0x41] (by decide)⟩, ⟨.timeout, .failed .eagain⟩]

/-- The meter is on USB, and its strings are short enough. -/
theorem describable_meter : Describable plainLocale meterAnswers.node where
  known key := by
    have hbus : (uevent (putUevent meterUevent)).hidId.busType = some 3 := by decide +kernel
    have hother : some 3 ≠ some busBluetooth := by decide
    constructor
    · intro node text? h
      obtain ⟨rfl, rfl⟩ := Prod.mk.inj (Option.some.inj h)
      exact Option.some_ne_none _
    · intro node text h
      obtain ⟨rfl, htext⟩ := Prod.mk.inj (Option.some.inj h)
      obtain rfl := Option.some.inj htext
      rw [← hbus] at hother
      exact ⟨by simp [hbus], fun _ h => absurd h hother, fun _ h => absurd h hother⟩
  manufacturer :=
    (exists_wideIn_eq_ok_iff _).mp ⟨"Silicon Laboratories".toList, by decide +kernel⟩
  product := (exists_wideIn_eq_ok_iff _).mp ⟨"CP2110".toList, by decide +kernel⟩
  serial := (exists_wideIn_eq_ok_iff _).mp ⟨[], by decide +kernel⟩

theorem openedDevice_meter :
    openedDevice meterAnswers.openFile (meterPath plainLocale meterAnswers) = some meterFile := by
  decide +kernel

/-- The kernel is not one of those whose reports are chopped. -/
theorem chopsReports_plainKernel (con : Console) (dev : HidDevice) :
    chopsReports plainKernel (hidInit plainKernel con).1 dev = false := by
  have hnew : ¬ (hidInit plainKernel .empty).1 < plainKernel.versionCode 2 6 34 := by
    decide +kernel
  rw [hidInit_fst plainKernel con .empty, chopsReports, decide_eq_false hnew, Bool.and_false,
    Bool.false_and]

/-- A source that saves bytes, and describes the device. -/
def verboseSource : UT612ByteSource := registerByteSink 1 (newByteSource true)

/-- A session whose first report fits, and one whose second report counts its length byte. -/
theorem run_defined_iff_meter :
    (∃ r, run (Allocator.next Block) plainLocale Clock.stopped.now plainKernel meterAnswers
      verboseSource savingHeap .empty ∅ = .ok r) ∧
    ¬ ∃ r, run (Allocator.next Block) plainLocale Clock.stopped.now plainKernel
      { meterAnswers with
        rounds := meterAnswers.rounds ++ [⟨.ready 1, .bytes selfCounting.bytes (by decide)⟩] }
      verboseSource savingHeap .empty ∅ = .ok r := by
  constructor
  · refine (run_defined_iff (Allocator.next Block) plainLocale plainKernel Clock.stopped meterAnswers
      verboseSource savingHeap_ne_none .empty ∅).mpr ⟨by decide, fun hnone => ?_, ?_⟩
    · exact nomatch openedDevice_meter.symm.trans hnone
    · intro answer numbered con' _ _
      rw [chopsReports_plainKernel]
      exact ⟨fun _ => describable_meter, by decide⟩
  · rw [run_defined_iff (Allocator.next Block) plainLocale plainKernel Clock.stopped _ verboseSource
      savingHeap_ne_none .empty ∅]
    rintro ⟨-, -, h⟩
    obtain ⟨numbered, con', hread⟩ := readDescriptor_ok plainKernel meterFile
      (foundConsole plainLocale plainKernel meterAnswers .empty)
    have hsound := (h meterFile numbered con' openedDevice_meter hread).2
    rw [chopsReports_plainKernel] at hsound
    revert hsound
    decide

end UT612
