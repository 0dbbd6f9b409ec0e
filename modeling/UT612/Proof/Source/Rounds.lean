import UT612.Proof.Hid.Read
import UT612.Proof.Udev.Open

/-!
# The main loop of a run

What the main loop of `run` does with the answers of the system is what the loop over reads does with
what they bring, as long as no report overruns its array. It ends, on a working clock, exactly if none
does and every report fits.
-/

namespace UT612

open Memory Assertion Dispatch

section Rounds

variable {now : Nat → TimeOfDay} {kernel : Kernel} {kernelVersion : Nat} {dev : HidDevice}
  {source : UT612ByteSource} {answer : RoundAnswer} {answers : List RoundAnswer} {heap : Heap}
  {con : Console}

/-! ### One round -/

theorem runRound_eq (now : Nat → TimeOfDay) (kernel : Kernel) (kernelVersion : Nat) (dev : HidDevice)
    (source : UT612ByteSource) (answer : RoundAnswer) (heap : Heap) (con : Console) :
    runRound now kernel kernelVersion dev source answer heap con =
      if answer.overruns (chopsReports kernel kernelVersion dev) then .error .undefinedRead
      else mainLoopRound now source (answer.result (chopsReports kernel kernelVersion dev)) heap
        con := by
  rw [runRound, hidReadTimeout_eq]
  split_ifs with hoverruns
  · rfl
  · have hdata := funext
      (dataAt_written (answer.result (chopsReports kernel kernelVersion dev)))
    rw [mainLoopRound, ← hdata]
    rfl

/-! ### All rounds -/

/-- The main loop on a device that has been loaded. -/
def runRounds (now : Nat → TimeOfDay) (kernel : Kernel) (kernelVersion : Nat) (dev : HidDevice)
    (source : UT612ByteSource) : List RoundAnswer → Heap → Console → Except Fault (Heap × Console)
  | [], heap, con => .ok (heap, con)
  | answer :: answers, heap, con => do
      let (heap, con) ← runRound now kernel kernelVersion dev source answer heap con
      runRounds now kernel kernelVersion dev source answers heap con

theorem triple_runLoop {handle : Nat} {r : Heap × Console}
    (h : runRounds now kernel kernelVersion dev source answers heap con = .ok r) :
    Triple (cell handle (Block.device dev))
      (runLoop now kernel kernelVersion handle source answers heap con) fun r' =>
        fact (r' = r) * cell handle (Block.device dev) := by
  induction answers generalizing heap con with
  | nil =>
      obtain rfl := Except.ok.inj h
      exact Triple.value _ _
  | cons answer answers ih =>
      refine Triple.look dvd_rfl (triple_deviceAt handle dev) ?_
      rw [runRounds] at h
      cases hround : runRound now kernel kernelVersion dev source answer heap con with
      | error fault =>
          rw [hround] at h
          exact nomatch h
      | ok s =>
          rw [hround] at h
          exact triple_evaluate (ih h)

theorem fails_evaluate {α γ : Type} (P : Assertion Block) (fault : Fault) (f : α → HidProgram γ) :
    Fails P (evaluate (.error fault) >>= f) := by
  cases fault <;> exact (Fails.wrong P _).first f

theorem fails_runLoop {handle : Nat} {fault : Fault}
    (h : runRounds now kernel kernelVersion dev source answers heap con = .error fault) :
    Fails (cell handle (Block.device dev))
      (runLoop now kernel kernelVersion handle source answers heap con) := by
  induction answers generalizing heap con with
  | nil => exact nomatch h
  | cons answer answers ih =>
      refine Fails.look dvd_rfl (triple_deviceAt handle dev) ?_
      rw [runRounds] at h
      cases hround : runRound now kernel kernelVersion dev source answer heap con with
      | error fault => exact fails_evaluate _ fault _
      | ok s =>
          rw [hround] at h
          exact ih h

/-- An answer that the main loop reads only inside its array and its report for. -/
def RoundAnswer.Sound (chops : Bool) (answer : RoundAnswer) : Prop :=
  answer.overruns chops = false ∧ (answer.result chops).Fits

instance (chops : Bool) (answer : RoundAnswer) : Decidable (answer.Sound chops) :=
  inferInstanceAs (Decidable (_ ∧ _))

/-- **The loop over answers** is the loop over what they bring. -/
theorem runRounds_eq (now : Nat → TimeOfDay) (kernel : Kernel) (kernelVersion : Nat)
    (dev : HidDevice) (source : UT612ByteSource)
    (h : ∀ answer ∈ answers, answer.overruns (chopsReports kernel kernelVersion dev) = false)
    (heap : Heap) (con : Console) :
    runRounds now kernel kernelVersion dev source answers heap con =
      mainLoop now source
        (answers.map (RoundAnswer.result (chopsReports kernel kernelVersion dev))) heap con := by
  induction answers generalizing heap con with
  | nil => rfl
  | cons answer answers ih =>
      obtain ⟨hanswer, hanswers⟩ := List.forall_mem_cons.mp h
      rw [runRounds, List.map_cons, mainLoop, runRound_eq, hanswer, if_neg Bool.false_ne_true]
      simp only [ih hanswers]

/-- A report that does not fit is read behind its end. -/
theorem mainLoopRound_eq_error (clock : Clock) (hsinks : ∀ a ∈ source.byteSinks, heap a ≠ none)
    {r : HidRead} (hr : ¬ r.Fits) (con : Console) :
    mainLoopRound clock.now source r heap con = .error .undefinedRead := by
  obtain ⟨_, _, -, -, hloop⟩ :=
    mainLoop_eq_error clock hsinks ⟨r, List.mem_singleton_self r, hr⟩ con
  rw [mainLoop] at hloop
  cases hround : mainLoopRound clock.now source r heap con with
  | error fault =>
      rw [hround] at hloop
      exact hloop
  | ok s =>
      rw [hround] at hloop
      cases hloop

theorem mainLoopRound_eq_ok (clock : Clock) (hsinks : ∀ a ∈ source.byteSinks, heap a ≠ none)
    {r : HidRead} (hr : r.Fits) (con : Console) :
    mainLoopRound clock.now source r heap con =
      .ok (runner.finish heap (roundEvents source r),
        (runner.outputs heap (roundEvents source r)).foldl (RunOutput.print clock) con) := by
  rw [mainLoopRound_eq clock.now source hr]
  apply foldlM_perform_eq
  intro call hcall
  have hround : calls (roundEvents source r) = broadcast source.byteSinks r.forwarded :=
    calls_ofCalls _
  rw [hround] at hcall
  exact hsinks call.1 (fst_mem_of_mem_broadcast hcall)

/-- A run stops at the first answer that is not sound, and at no other. -/
theorem exists_runRounds_eq_ok_iff (clock : Clock)
    (hsinks : ∀ a ∈ source.byteSinks, heap a ≠ none) (con : Console) :
    (∃ r, runRounds clock.now kernel kernelVersion dev source answers heap con = .ok r) ↔
      ∀ answer ∈ answers, answer.Sound (chopsReports kernel kernelVersion dev) := by
  constructor
  · intro h
    induction answers generalizing heap con with
    | nil => exact List.forall_mem_nil _
    | cons answer answers ih =>
        obtain ⟨r, hr⟩ := h
        rw [runRounds, runRound_eq] at hr
        split_ifs at hr with hoverruns
        · exact nomatch hr
        · by_cases hfits : (answer.result (chopsReports kernel kernelVersion dev)).Fits
          · rw [mainLoopRound_eq_ok clock hsinks hfits] at hr
            have hstay : ∀ a ∈ source.byteSinks, runner.finish heap (roundEvents source
                (answer.result (chopsReports kernel kernelVersion dev))) a ≠ none :=
              fun a ha => finish_runner_ne_none (hsinks a ha) _
            exact List.forall_mem_cons.mpr
              ⟨⟨Bool.eq_false_of_not_eq_true hoverruns, hfits⟩, ih hstay _ ⟨r, hr⟩⟩
          · rw [mainLoopRound_eq_error clock hsinks hfits] at hr
            exact nomatch hr
  · intro h
    rw [runRounds_eq clock.now kernel kernelVersion dev source (fun answer ha => (h answer ha).1)]
    refine ⟨_, mainLoop_eq_ok clock hsinks (fun r hr => ?_) con⟩
    obtain ⟨answer, hanswer, rfl⟩ := List.mem_map.mp hr
    exact (h answer hanswer).2

end Rounds

end UT612
