import UT612.Proof.Source.FanOut
import UT612.Proof.Source.Run

/-!
# A session with the meter

A run that finds the meter and reads framed reports delivers their payload: it leaves the sinks as if
the bytes had been handed to them one after another, and `cout` shows what it would show then, after
what has been said about the device and before the last line. How the bytes were spread over the
reports, errors and timeouts, and what is told of the device decide nothing about this.
-/

namespace UT612

open Memory Assertion Dispatch

/-! ### What is printed besides -/

/-- Something may have been printed, but the clock has not been read. -/
structure Console.Extends (con con' : Console) : Prop where
  cout : con.cout <+: con'.cout
  clockReads : con'.clockReads = con.clockReads

theorem Console.Extends.refl (con : Console) : con.Extends con := ⟨List.prefix_rfl, rfl⟩

theorem Console.Extends.trans {con con' con'' : Console} (h : con.Extends con')
    (h' : con'.Extends con'') : con.Extends con'' :=
  ⟨h.cout.trans h'.cout, h'.clockReads.trans h.clockReads⟩

theorem Console.extends_out (con : Console) (text : Text) : con.Extends (con.out text) :=
  ⟨List.prefix_append _ _, rfl⟩

theorem Console.extends_err (con : Console) (text : Text) : con.Extends (con.err text) :=
  ⟨List.prefix_rfl, rfl⟩

theorem Console.Extends.out {con con' : Console} (h : con.Extends con') (text : Text) :
    con.Extends (con'.out text) :=
  h.trans (con'.extends_out text)

theorem SameOutput.refl (con : Console) : SameOutput con con := ⟨rfl, rfl⟩

theorem SameOutput.trans {con con' con'' : Console} (h : SameOutput con con')
    (h' : SameOutput con' con'') : SameOutput con con'' :=
  ⟨h.cout.trans h'.cout, h.clockReads.trans h'.clockReads⟩

theorem SameOutput.extends {con con' : Console} (h : SameOutput con' con) : con.Extends con' :=
  ⟨h.cout ▸ List.prefix_rfl, h.clockReads⟩

section Device

variable (locale : Locale) (kernel : Kernel)

theorem extends_hidInit (con : Console) : con.Extends (hidInit kernel con).2 := by
  simp only [hidInit, detectKernelVersion]
  split
  · exact .refl con
  · split
    · exact .refl con
    · exact con.extends_out _

theorem extends_enumerationConsole (udev : Option (List HidrawDevice)) (con : Console) :
    con.Extends (enumerationConsole kernel udev con) := by
  cases udev with
  | none => exact (extends_hidInit kernel con).out _
  | some raws => exact extends_hidInit kernel con

theorem extends_consoleAt (path : Option Text) (con : Console) :
    con.Extends (consoleAt kernel path con) := by
  cases path with
  | none => exact .refl con
  | some s => exact extends_hidInit kernel con

theorem extends_foundConsole (answers : Answers) (con : Console) :
    con.Extends (foundConsole locale kernel answers con) :=
  ((extends_hidInit kernel con).trans (extends_enumerationConsole kernel _ _)).trans
    (extends_consoleAt kernel _ _)

theorem extends_readDescriptor {answer : OpenAnswer} {con con' : Console} {numbered : Bool}
    (h : readDescriptor kernel answer con = .ok (numbered, con')) : con.Extends con' := by
  have hwarn : con.Extends (warnDescSize kernel answer con) := by
    rw [warnDescSize]
    split
    · exact con.extends_err _
    · exact .refl con
  rw [readDescriptor] at h
  split at h
  · cases h
    exact hwarn.trans (Console.extends_err _ _)
  · next res desc _ =>
    cases hsearch : usesNumberedReports (descriptorValue desc) answer.size with
    | error fault =>
        rw [hsearch] at h
        cases h
    | ok b =>
        rw [hsearch] at h
        cases h
        exact hwarn

theorem extends_warnUnread (name : Text) (res : Int) (con : Console) :
    con.Extends (warnUnread name res con) := by
  rw [warnUnread]
  split_ifs
  · exact con.extends_err _
  · exact .refl con

theorem extends_deviceStringOf {udev : Option (Option DeviceNode)} {key : DeviceStringId}
    {string : WideArray} {con : Console} {r : (Int × WideArray) × Console}
    (h : deviceStringOf locale udev key string con = some r) : con.Extends r.2 := by
  rw [deviceStringOf] at h
  split at h
  · obtain rfl := Option.some.inj h
    split_ifs
    · exact con.extends_out _
    · exact .refl con
  · obtain ⟨text, -, htext⟩ := Option.bind_eq_some_iff.mp h
    obtain ⟨x, -, rfl⟩ := Option.map_eq_some_iff.mp htext
    exact .refl con

theorem extends_readStringOf {node : DeviceStringId → Option (Option DeviceNode)}
    {key : DeviceStringId} {name : Text} {string : WideArray} {con : Console}
    {r : WideArray × Text × Console}
    (h : readStringOf locale node key name string con = some r) : con.Extends r.2.2 := by
  obtain ⟨x, hx, h⟩ := Option.bind_eq_some_iff.mp h
  obtain ⟨s, -, h⟩ := Option.bind_eq_some_iff.mp h
  obtain rfl := Option.some.inj h
  exact (extends_deviceStringOf locale hx).trans (extends_warnUnread _ _ _)

theorem extends_deviceInfoOf {node : DeviceStringId → Option (Option DeviceNode)}
    {con con' : Console} (h : deviceInfoOf locale node con = some con') : con.Extends con' := by
  obtain ⟨r, hr, h⟩ := Option.bind_eq_some_iff.mp h
  obtain ⟨r', hr', h⟩ := Option.bind_eq_some_iff.mp h
  obtain ⟨r'', hr'', h⟩ := Option.bind_eq_some_iff.mp h
  obtain ⟨c, -, h⟩ := Option.bind_eq_some_iff.mp h
  obtain rfl := Option.some.inj h
  have hmanufacturer := (extends_readStringOf locale hr).out (manufacturerStringLine r.2.1)
  have hproduct := (extends_readStringOf locale hr').out (productStringLine r'.2.1)
  have hserial := (extends_readStringOf locale hr'').out (serialNumberStringLine c r''.2.1)
  exact (hmanufacturer.trans hproduct).trans hserial

theorem extends_describedOf {answers : Answers} {source : UT612ByteSource} {con con' : Console}
    (h : describedOf locale answers source con = some con') : con.Extends con' := by
  rw [describedOf] at h
  split_ifs at h
  · exact extends_deviceInfoOf locale h
  · obtain rfl := Option.some.inj h
    exact .refl con

/-- A feature report prints nothing on `cout`. -/
theorem sameOutput_feature (answer : IoctlAnswer Unit) (function : Text) (con : Console) :
    SameOutput (warnTransfer function (hidSendFeatureReport kernel answer con).1
      (hidSendFeatureReport kernel answer con).2) con := by
  have hsend : SameOutput (hidSendFeatureReport kernel answer con).2 con := by
    cases answer with
    | failed errno => exact ⟨rfl, rfl⟩
    | done res _ => exact .refl con
  rw [warnTransfer]
  split_ifs
  · exact ⟨hsend.cout, hsend.clockReads⟩
  · exact hsend

theorem sameOutput_enabledConsole (feature : List UInt8 → IoctlAnswer Unit) (con : Console) :
    SameOutput (enabledConsole kernel feature con) con :=
  (sameOutput_feature kernel _ _ _).trans (sameOutput_feature kernel _ _ con)

def killedByUser : Text := "\nKilled by user\n".toList

theorem sameOutput_killedConsole (feature : List UInt8 → IoctlAnswer Unit) {con con' : Console}
    (h : SameOutput con con') :
    SameOutput (killedConsole kernel feature con) (con'.out killedByUser) := by
  have hdisable := (sameOutput_feature kernel (feature (uartEnable false))
    "enableUartForUT612".toList con).trans h
  exact ⟨congrArg (· ++ killedByUser) hdisable.cout, hdisable.clockReads⟩

end Device

/-! ### A session -/

/-- What the system answers to a session with the meter in which the reads bring these results. -/
structure Connects (locale : Locale) (kernel : Kernel) (answers : Answers) (verbose : Bool)
    (results : List HidRead) : Prop where
  readable : ∀ raw ∈ answers.found.getD [], raw.Readable
  opened : ∃ answer, openedDevice answers.openFile (meterPath locale answers) = some answer ∧
    ∀ numbered con con', readDescriptor kernel answer con = .ok (numbered, con') →
      let chops := chopsReports kernel (hidInit kernel con).1 ⟨answer.fd, true, numbered⟩
      (∀ round ∈ answers.rounds, round.overruns chops = false) ∧
        answers.rounds.map (RoundAnswer.result chops) = results
  described : verbose = true → Describable locale answers.node

section Run

variable (A : Allocator Block) {locale : Locale} (clock : Clock) {kernel : Kernel}
  {answers : Answers} {source : UT612ByteSource} {heap : Heap} {results : List HidRead}

theorem Connects.describedOf (h : Connects locale kernel answers source.verbose results)
    (con : Console) :
    ∃ con', describedOf locale answers source con = some con' ∧ con.Extends con' := by
  have hdescribed : (UT612.describedOf locale answers source con).isSome := by
    rw [UT612.describedOf]
    split_ifs with hverbose
    · exact (isSome_deviceInfoOf locale answers.node con).mpr (h.described hverbose)
    · rfl
  obtain ⟨con', hcon'⟩ := Option.isSome_iff_exists.mp hdescribed
  exact ⟨con', hcon', extends_describedOf locale hcon'⟩

/-- What a session with the meter comes to, from what its main loop comes to. -/
theorem Connects.runOf (now : Nat → TimeOfDay)
    (h : Connects locale kernel answers source.verbose results) (heap : Heap) (con : Console) :
    ∃ con₁, con.Extends con₁ ∧ ∀ after con₂,
      mainLoop now source results heap con₁ = .ok (after, con₂) →
      ∃ con', runOf locale now kernel answers source heap con = some (0, after, con') ∧
        SameOutput con' (con₂.out killedByUser) := by
  obtain ⟨answer, hopened, hreads⟩ := h.opened
  obtain ⟨numbered, con₁, hread⟩ :=
    readDescriptor_ok kernel answer (foundConsole locale kernel answers con)
  obtain ⟨hoverruns, hresults⟩ := hreads numbered _ con₁ hread
  obtain ⟨con₂, hdescribed, hextends⟩ := h.describedOf con₁
  have hfound : con.Extends con₁ :=
    (extends_foundConsole locale kernel answers con).trans (extends_readDescriptor kernel hread)
  refine ⟨enabledConsole kernel answers.feature con₂,
    (hfound.trans hextends).trans (sameOutput_enabledConsole kernel _ con₂).extends,
    fun after con₃ hloop => ⟨killedConsole kernel answers.feature con₃, ?_,
      sameOutput_killedConsole kernel answers.feature (.refl con₃)⟩⟩
  rw [hidInit_fst kernel _ (enabledConsole kernel answers.feature con₂)] at hoverruns hresults
  have hrounds : roundsOf now kernel ⟨answer.fd, true, numbered⟩ source answers.rounds heap
      (enabledConsole kernel answers.feature con₂) = some (after, con₃) := by
    rw [roundsOf]
    simp only [if_pos hoverruns, hresults, hloop, Except.toOption]
  have hconnected : connectedOf locale now kernel answers source ⟨answer.fd, true, numbered⟩
      heap con₁ = some (after, killedConsole kernel answers.feature con₃) := by
    rw [connectedOf, hdescribed, Option.bind_some, hrounds, Option.bind_some]
  rw [UT612.runOf, if_pos h.readable, hopened]
  simp only [hread, Except.toOption, Option.bind_some, hconnected]

theorem Connects.run (now : Nat → TimeOfDay)
    (h : Connects locale kernel answers source.verbose results) (heap : Heap) (con : Console)
    (m : Store Block) :
    ∃ con₁, con.Extends con₁ ∧ ∀ after con₂,
      mainLoop now source results heap con₁ = .ok (after, con₂) →
      ∃ con' m', run A locale now kernel answers source heap con m = .ok ((0, after, con'), m') ∧
        SameOutput con' (con₂.out killedByUser) ∧
        ∃ lost, lost.Disjoint m ∧ m' = lost ∪ m ∧ strings (lostInRun locale answers source) lost := by
  obtain ⟨con₁, hextends, hrun⟩ := h.runOf now heap con
  refine ⟨con₁, hextends, fun after con₂ hloop => ?_⟩
  obtain ⟨con', hvalue, hsame⟩ := hrun after con₂ hloop
  obtain ⟨hdefined, hresult⟩ := (computes_run A locale now kernel answers source heap con).run m
  obtain ⟨⟨r, m'⟩, hok⟩ := hdefined.mpr (Option.isSome_of_eq_some hvalue)
  obtain ⟨hr, hm'⟩ := hresult r m' hok
  obtain rfl := Option.some.inj (hvalue.symm.trans hr)
  exact ⟨con', m', hok, hsame, mul_exactly.mp hm'⟩

/-- A session with the meter, for these answers to its reads. -/
theorem connects_meter {rounds : List RoundAnswer} (verbose : Bool)
    (h : ∀ round ∈ rounds, round.overruns false = false) :
    Connects plainLocale plainKernel { meterAnswers with rounds := rounds } verbose
      (rounds.map (RoundAnswer.result false)) where
  readable := show ∀ raw ∈ meterAnswers.found.getD [], raw.Readable by decide
  opened := by
    refine ⟨meterFile, openedDevice_meter, fun numbered con con' _ => ?_⟩
    rw [chopsReports_plainKernel]
    exact ⟨h, rfl⟩
  described _ := describable_meter

/-- A frame in two reports, with a timeout in between, and a damaged one. -/
def splitRounds : List RoundAnswer :=
  [⟨.ready 1, .bytes (10 :: phaseFrame.bytes.take 10) (by decide)⟩, ⟨.timeout, .failed .eagain⟩,
    ⟨.ready 1, .bytes (24 :: (phaseFrame.bytes.drop 10 ++ damagedFrame.bytes)) (by decide)⟩]

/-- A source with a parser and a file. -/
def sessionSource : UT612ByteSource := registerAll [1, 2] (newByteSource true)

end Run

end UT612
