import UT612.Model.Program

/-!
# What a command line means

However its options are spelled, a command line means the settings that they come to: a switch is on
if it is named anywhere, and of two files with one purpose the last one counts. `main` acts on these,
and on nothing else. A command line that spells no options that `main` takes, or has operands, is
answered with the help alone.
-/

namespace UT612

namespace Program

open Getopt

variable {host : Host} {choices : List Choice} {words : List Text}

/-! ### Settings -/

/-- The argument of the last choice of an option. -/
def lastArgument (val : Char) (choices : List Choice) : Option Text :=
  (choices.filter fun o => o.val = val).getLast?.bind Choice.optarg

def settingsOf (choices : List Choice) : Arguments where
  verbose := choices.any fun o => o.val = 'v'
  noHeaders := choices.any fun o => o.val = 'n'
  printHelp := choices.any fun o => o.val = 'h'
  binaryDumpFile := lastArgument 'd' choices
  parseBinary := lastArgument 'p' choices

/-- `main` has a case for the option. -/
def Handled (o : Choice) : Prop := o.val ∈ ['d', 'p', 'v', 'n', 'h']

/-- One more option. -/
theorem setArgument_settingsOf {o : Choice} (h : Handled o) :
    setArgument o (settingsOf choices) = some (settingsOf (choices ++ [o])) := by
  obtain ⟨val, optarg⟩ := o
  have hval : val = 'd' ∨ val = 'p' ∨ val = 'v' ∨ val = 'n' ∨ val = 'h' := by
    simpa [Handled] using h
  rcases hval with rfl | rfl | rfl | rfl | rfl <;>
    simp [setArgument, settingsOf, lastArgument]

theorem setArgument_of_not_handled {o : Choice} (h : ¬ Handled o) (args : Arguments) :
    setArgument o args = none := by
  have hval : ¬ (o.val = 'd' ∨ o.val = 'p' ∨ o.val = 'v' ∨ o.val = 'n' ∨ o.val = 'h') := by
    simpa [Handled] using h
  rw [setArgument.eq_def]
  split <;> simp_all

/-- The settings that choices come to, if `main` has a case for each. -/
theorem foldlM_setArgument (h : ∀ o ∈ choices, Handled o) :
    choices.foldlM (fun args o => setArgument o args) noArguments = some (settingsOf choices) := by
  induction choices using List.reverseRecOn with
  | nil => rfl
  | append_singleton choices o ih =>
      obtain ⟨hchoices, ho⟩ := List.forall_mem_append.mp h
      rw [List.foldlM_append, ih hchoices, Option.bind_eq_bind, Option.bind_some,
        List.foldlM_cons, setArgument_settingsOf (ho o (List.mem_singleton_self o))]
      rfl

/-! ### The loop over the options -/

/-- What the loop makes of the choices and the end of a scan. -/
def loopOf (host : Host) (ending : Except Complaint (List Text)) :
    List Choice → Arguments → Except Text (Arguments × List Text)
  | [], args =>
      match ending with
      | .ok operands => .ok (args, operands)
      | .error c => .error (host.complaint c ++ parsingError)
  | o :: choices, args =>
      match setArgument o args with
      | some args => loopOf host ending choices args
      | none => .error (unhandledCode o.val)

theorem readOptions_eq (host : Host) (s : State) (args : Arguments) :
    readOptions host s args =
      loopOf host (scan options host.permute s).2 (scan options host.permute s).1 args := by
  fun_induction readOptions host s args with
  | case1 s args s' h => rw [scan_of_done h, loopOf]
  | case2 s args c s' h => rw [scan_of_complaint h, loopOf]
  | case3 s args o s' h args' hset ih => rw [scan_of_choice h, loopOf, hset, ih]
  | case4 s args o s' h hset => rw [scan_of_choice h, loopOf, hset]

theorem loopOf_eq_ok {args args' : Arguments} {operands : List Text}
    (h : choices.foldlM (fun args o => setArgument o args) args = some args') :
    loopOf host (.ok operands) choices args = .ok (args', operands) := by
  induction choices generalizing args with
  | nil =>
      obtain rfl := Option.some.inj h
      rfl
  | cons o choices ih =>
      rw [List.foldlM_cons] at h
      obtain ⟨args₁, hset, hrest⟩ := Option.bind_eq_some_iff.mp h
      rw [loopOf, hset]
      exact ih hrest

theorem unhandledCode_ne_nil (c : Char) : unhandledCode c ≠ [] :=
  List.append_ne_nil_of_right_ne_nil _ (by decide)

theorem nonOptionArguments_ne_nil (operands : List Text) : nonOptionArguments operands ≠ [] :=
  List.append_ne_nil_of_right_ne_nil _ (by decide)

theorem loopOf_eq_error {ending : Except Complaint (List Text)}
    (h : (∀ o ∈ choices, Handled o) → ∃ c, ending = .error c) (args : Arguments) :
    ∃ message, message ≠ [] ∧ loopOf host ending choices args = .error message := by
  induction choices generalizing args with
  | nil =>
      obtain ⟨c, rfl⟩ := h (List.forall_mem_nil _)
      exact ⟨_, List.append_ne_nil_of_right_ne_nil _ (by decide), rfl⟩
  | cons o choices ih =>
      rw [loopOf]
      cases hset : setArgument o args with
      | none => exact ⟨_, unhandledCode_ne_nil o.val, rfl⟩
      | some args' =>
          refine ih (fun hchoices => h (List.forall_mem_cons.mpr ⟨?_, hchoices⟩)) args'
          by_contra hnot
          exact nomatch hset.symm.trans (setArgument_of_not_handled hnot args)

/-! ### What is done -/

/-- `getopt_long` returns one option that `main` has no case for. -/
theorem val_of_offers {o : Choice} (h : Offers options o) : o.val = 'l' ∨ Handled o := by
  have hval : o.val ∈ ['l', ':', 'd', 'p', 'v', 'n', 'h'] ∧ o.val ≠ ':' := by
    rcases h with hshort | ⟨l, hl, hval, -⟩
    · obtain ⟨hmem, hcolon⟩ := mem_optstring hshort
      have hall : options.optstring.all (· ∈ ['l', ':', 'd', 'p', 'v', 'n', 'h']) = true := by decide
      exact ⟨of_decide_eq_true (List.all_eq_true.mp hall o.val hmem), hcolon⟩
    · have hall : ∀ l ∈ options.longopts,
          l.val ∈ ['l', ':', 'd', 'p', 'v', 'n', 'h'] ∧ l.val ≠ ':' := by decide
      exact hval ▸ hall l hl
  obtain ⟨hmem, hcolon⟩ := hval
  rcases List.mem_cons.mp hmem with hl | hmem
  · exact .inl hl
  · exact .inr ((List.mem_cons.mp hmem).resolve_left hcolon)

theorem not_handled {o : Choice} (h : o.val = 'l') : ¬ Handled o := by
  rw [Handled, h]
  decide

theorem main_of_spells (h : Spells options host.permute words choices [])
    (hl : ∀ o ∈ choices, o.val ≠ 'l') (con : Console) :
    main host words con = act host (settingsOf choices) con := by
  have hhandled : ∀ o ∈ choices, Handled o := fun o ho =>
    (val_of_offers (h.offers o ho)).resolve_left (hl o ho)
  rw [main, readOptions_eq, scan_start_iff.mpr h, loopOf_eq_ok (foldlM_setArgument hhandled)]
  exact if_neg (not_not.mpr rfl)

end Program

end UT612
