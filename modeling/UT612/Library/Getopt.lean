import Mathlib.Algebra.GroupWithZero.Nat
import Mathlib.Algebra.BigOperators.Group.List.Basic
import Mathlib.Data.List.TakeWhile

/-!
# Options on a command line

The function `getopt_long` of the C library, for options that have no argument or need one, and the
ways to spell a choice of options that it accepts: short options one by one or several in a word,
long ones in full or as far as they are needed, arguments in the word of their option or in the next
one, and operands between them or at the end. A program that asks for options until there are none
left gets the choice that is spelled.
-/

namespace Getopt

/-- An element of `argv`. -/
abbrev Word := List Char

structure LongOption where
  name : Word
  requiredArgument : Bool
  val : Char
  deriving DecidableEq, Repr

/-- The options a program knows. A colon after a character of `optstring` says that the option needs
an argument. -/
structure Options where
  optstring : List Char
  longopts : List LongOption

/-- An option as it is returned, with its argument. -/
structure Choice where
  val : Char
  optarg : Option Word
  deriving DecidableEq, Repr

/-- What the user is told when `?` is returned. -/
inductive Complaint where
  | invalidOption (c : Char)
  | argumentMissing (c : Char)
  | unrecognizedOption (text : Word)
  | ambiguousOption (text : Word)
  | longArgumentMissing (name : Word)
  | unwantedArgument (name : Word)
  deriving DecidableEq, Repr

/-- What one call returns. -/
inductive Answer where
  | choice (c : Choice)
  | complaint (c : Complaint)
  | done
  deriving DecidableEq, Repr

/-- What is remembered between two calls: what is left of a word of short options, the words after
it, and those that have been skipped. -/
structure State where
  nextchar : List Char
  unread : List Word
  skipped : List Word
  deriving DecidableEq, Repr

def start (words : List Word) : State := ⟨[], words, []⟩

/-- The words from `optind` on when no options are left. -/
def State.operands (s : State) : List Word := s.skipped ++ s.unread

/-! ### The function -/

/-- Whether a short option needs an argument. -/
def Options.short (T : Options) (c : Char) : Option Bool :=
  if c = ':' ∨ c = ';' then none
  else
    match T.optstring.dropWhile (· ≠ c) with
    | [] => none
    | _ :: next => some (next.head? == some ':')

inductive Found where
  | option (o : LongOption)
  | ambiguous
  | nothing
  deriving DecidableEq, Repr

/-- The long option with a name, or else with a name that begins so. -/
def Options.long (T : Options) (name : Word) : Found :=
  match T.longopts.find? fun o => o.name = name with
  | some o => .option o
  | none =>
      match T.longopts.filter fun o => name.isPrefixOf o.name with
      | [] => .nothing
      | o :: os =>
          if ∀ p ∈ os, p.requiredArgument = o.requiredArgument ∧ p.val = o.val then .option o
          else .ambiguous

inductive Element where
  | operand
  | terminator
  | long (text : Word)
  | short (c : Char) (nextchar : List Char)
  deriving DecidableEq, Repr

def element : Word → Element
  | ['-', '-'] => .terminator
  | '-' :: '-' :: text => .long text
  | '-' :: c :: nextchar => .short c nextchar
  | _ => .operand

section Function

variable (T : Options)

def shortOption (c : Char) (nextchar : List Char) (unread skipped : List Word) : Answer × State :=
  match T.short c with
  | none => (.complaint (.invalidOption c), ⟨nextchar, unread, skipped⟩)
  | some false => (.choice ⟨c, none⟩, ⟨nextchar, unread, skipped⟩)
  | some true =>
      if nextchar ≠ [] then (.choice ⟨c, some nextchar⟩, ⟨[], unread, skipped⟩)
      else
        match unread with
        | [] => (.complaint (.argumentMissing c), ⟨[], [], skipped⟩)
        | arg :: unread => (.choice ⟨c, some arg⟩, ⟨[], unread, skipped⟩)

def longOption (text : Word) (unread skipped : List Word) : Answer × State :=
  match T.long (text.takeWhile (· ≠ '=')) with
  | .nothing => (.complaint (.unrecognizedOption text), ⟨[], unread, skipped⟩)
  | .ambiguous => (.complaint (.ambiguousOption text), ⟨[], unread, skipped⟩)
  | .option o =>
      match text.dropWhile (· ≠ '='), o.requiredArgument, unread with
      | _ :: arg, true, unread => (.choice ⟨o.val, some arg⟩, ⟨[], unread, skipped⟩)
      | _ :: _, false, unread => (.complaint (.unwantedArgument o.name), ⟨[], unread, skipped⟩)
      | [], false, unread => (.choice ⟨o.val, none⟩, ⟨[], unread, skipped⟩)
      | [], true, [] => (.complaint (.longArgumentMissing o.name), ⟨[], [], skipped⟩)
      | [], true, arg :: unread => (.choice ⟨o.val, some arg⟩, ⟨[], unread, skipped⟩)

variable (permute : Bool)

/-- The scan of a new word, after operands if these may be skipped. -/
def nextElement : List Word → List Word → Answer × State
  | [], skipped => (.done, ⟨[], [], skipped⟩)
  | word :: unread, skipped =>
      match element word with
      | .operand =>
          if permute then nextElement unread (skipped ++ [word])
          else (.done, ⟨[], word :: unread, skipped⟩)
      | .terminator => (.done, ⟨[], unread, skipped⟩)
      | .long text => longOption T text unread skipped
      | .short c nextchar => shortOption T c nextchar unread skipped

def getoptLong (s : State) : Answer × State :=
  match s.nextchar with
  | [] => nextElement T permute s.unread s.skipped
  | c :: nextchar => shortOption T c nextchar s.unread s.skipped

/-! ### Asking for all options -/

/-- How much is left to be scanned. -/
def State.size (s : State) : Nat := s.nextchar.length + (s.unread.map fun w => w.length + 1).sum

variable {T permute}

theorem size_shortOption {c : Char} {nextchar : List Char} {unread skipped : List Word} {o : Choice}
    {s : State} (h : shortOption T c nextchar unread skipped = (.choice o, s)) :
    s.size < State.size ⟨c :: nextchar, unread, skipped⟩ := by
  unfold shortOption at h
  split at h
  · cases h
  · cases h
    simp [State.size]
  · split_ifs at h
    · cases h
      simp only [State.size, List.length_nil, List.length_cons]
      omega
    · split at h
      · cases h
      · cases h
        simp only [State.size, List.length_nil, List.length_cons, List.map_cons, List.sum_cons]
        omega

theorem size_longOption {text : Word} {unread skipped : List Word} {o : Choice} {s : State}
    (h : longOption T text unread skipped = (.choice o, s)) :
    s.size ≤ State.size ⟨[], unread, skipped⟩ := by
  rw [longOption] at h
  split at h
  · cases h
  · cases h
  · split at h <;> cases h
    · exact Nat.le_refl _
    · exact Nat.le_refl _
    · simp only [State.size, List.length_nil, List.map_cons, List.sum_cons]
      omega

theorem element_eq_short {word : Word} {c : Char} {nextchar : List Char}
    (h : element word = .short c nextchar) : word = '-' :: c :: nextchar ∧ c ≠ '-' := by
  rw [element.eq_def] at h
  split at h <;> cases h
  refine ⟨rfl, ?_⟩
  rintro rfl
  rename_i hlong _
  exact hlong rfl

theorem size_cons (word : Word) (unread skipped skipped' : List Word) :
    State.size ⟨[], word :: unread, skipped⟩ =
      word.length + 1 + State.size ⟨[], unread, skipped'⟩ := by
  simp [State.size]

theorem size_nextElement {unread skipped : List Word} {o : Choice} {s : State}
    (h : nextElement T permute unread skipped = (.choice o, s)) :
    s.size < State.size ⟨[], unread, skipped⟩ := by
  induction unread generalizing skipped with
  | nil => cases h
  | cons word unread ih =>
      have hcons := size_cons word unread skipped
      rw [nextElement] at h
      split at h
      · split_ifs at h
        · have hlt := ih h
          have hoperand := hcons (skipped ++ [word])
          omega
        · cases h
      · cases h
      · have hle := size_longOption h
        have hlong := hcons skipped
        omega
      · next c nextchar hword =>
        have hlt := size_shortOption h
        have hshort := hcons skipped
        rw [(element_eq_short hword).1] at hshort ⊢
        simp only [State.size, List.length_cons, List.length_nil] at hlt hshort ⊢
        omega

theorem size_getoptLong {s s' : State} {o : Choice} (h : getoptLong T permute s = (.choice o, s')) :
    s'.size < s.size := by
  obtain ⟨nextchar, unread, skipped⟩ := s
  cases nextchar with
  | nil => exact size_nextElement h
  | cons c nextchar => exact size_shortOption h

variable (T permute)

/-- The choices that are returned until there are none left, and the operands then, or until there
is a complaint. -/
def scan (s : State) : List Choice × Except Complaint (List Word) :=
  match _h : getoptLong T permute s with
  | (.done, s') => ([], .ok s'.operands)
  | (.complaint c, _) => ([], .error c)
  | (.choice o, s') => (o :: (scan s').1, (scan s').2)
termination_by s.size
decreasing_by all_goals exact size_getoptLong _h

variable {T permute}

theorem scan_of_done {s s' : State} (h : getoptLong T permute s = (.done, s')) :
    scan T permute s = ([], .ok s'.operands) := by
  rw [scan]
  split <;> simp_all

theorem scan_of_complaint {s s' : State} {c : Complaint}
    (h : getoptLong T permute s = (.complaint c, s')) : scan T permute s = ([], .error c) := by
  rw [scan]
  split <;> simp_all

theorem scan_of_choice {s s' : State} {o : Choice} (h : getoptLong T permute s = (.choice o, s')) :
    scan T permute s = (o :: (scan T permute s').1, (scan T permute s').2) := by
  rw [scan]
  split <;> simp_all

/-! ### The shape of a call -/

theorem getoptLong_cons (c : Char) (nextchar : List Char) (unread skipped : List Word) :
    getoptLong T permute ⟨c :: nextchar, unread, skipped⟩ =
      shortOption T c nextchar unread skipped :=
  rfl

theorem getoptLong_nil (unread skipped : List Word) :
    getoptLong T permute ⟨[], unread, skipped⟩ = nextElement T permute unread skipped :=
  rfl

theorem getoptLong_terminator (unread skipped : List Word) :
    getoptLong T permute ⟨[], ['-', '-'] :: unread, skipped⟩ = (.done, ⟨[], unread, skipped⟩) :=
  rfl

theorem scan_nil (skipped : List Word) : scan T permute ⟨[], [], skipped⟩ = ([], .ok skipped) := by
  have hcall : getoptLong T permute ⟨[], [], skipped⟩ = (.done, ⟨[], [], skipped⟩) := rfl
  rw [scan_of_done hcall, State.operands, List.append_nil]

end Function

/-! ### Spelling -/

section Spelling

variable (T : Options)

/-- A text stands for a long option if it is its name, or if names only begin with it and all that
do belong to options that are used and returned the same way. -/
inductive Names (text : Word) (o : LongOption) : Prop where
  | exact (h : T.longopts.find? (fun p => p.name = text) = some o)
  | abbreviation (hexact : ∀ p ∈ T.longopts, p.name ≠ text) (ho : o ∈ T.longopts)
      (hbegins : text <+: o.name)
      (hunique : ∀ p ∈ T.longopts, text <+: p.name →
        p.requiredArgument = o.requiredArgument ∧ p.val = o.val)

/-- The text behind the hyphens of a long option and the words after it spell a choice, and leave
words. -/
inductive SpellsLong : Word → List Word → Choice → List Word → Prop where
  | flag {text : Word} {o : LongOption} {words : List Word} (hname : Names T text o)
      (htext : '=' ∉ text) (hargument : o.requiredArgument = false) :
      SpellsLong text words ⟨o.val, none⟩ words
  | attached {text arg : Word} {o : LongOption} {words : List Word} (hname : Names T text o)
      (htext : '=' ∉ text) (hargument : o.requiredArgument = true) :
      SpellsLong (text ++ '=' :: arg) words ⟨o.val, some arg⟩ words
  | separate {text arg : Word} {o : LongOption} {words : List Word} (hname : Names T text o)
      (htext : '=' ∉ text) (hargument : o.requiredArgument = true) :
      SpellsLong text (arg :: words) ⟨o.val, some arg⟩ words

/-- The characters behind the hyphen of short options and the words after them spell choices, and
leave words. -/
inductive SpellsShort : List Char → List Word → List Choice → List Word → Prop where
  | nil {words : List Word} : SpellsShort [] words [] words
  | flag {c : Char} {cs : List Char} {words rest : List Word} {choices : List Choice}
      (hc : T.short c = some false) (h : SpellsShort cs words choices rest) :
      SpellsShort (c :: cs) words (⟨c, none⟩ :: choices) rest
  | attached {c : Char} {arg : Word} {words : List Word} (hc : T.short c = some true)
      (harg : arg ≠ []) : SpellsShort (c :: arg) words [⟨c, some arg⟩] words
  | separate {c : Char} {arg : Word} {words : List Word} (hc : T.short c = some true) :
      SpellsShort [c] (arg :: words) [⟨c, some arg⟩] words

variable (permute : Bool)

/-- The words of a command line spell choices and operands. -/
inductive Spells : List Word → List Choice → List Word → Prop where
  | nil : Spells [] [] []
  | terminator {words : List Word} : Spells (['-', '-'] :: words) [] words
  | operand {word : Word} {words operands : List Word} {choices : List Choice}
      (hpermute : permute = true) (hword : element word = .operand)
      (h : Spells words choices operands) : Spells (word :: words) choices (word :: operands)
  | firstOperand {word : Word} {words : List Word} (hpermute : permute = false)
      (hword : element word = .operand) : Spells (word :: words) [] (word :: words)
  | long {text : Word} {words rest operands : List Word} {choice : Choice} {choices : List Choice}
      (htext : text ≠ []) (hlong : SpellsLong T text words choice rest)
      (h : Spells rest choices operands) :
      Spells (('-' :: '-' :: text) :: words) (choice :: choices) operands
  | short {c : Char} {cs : List Char} {words rest operands : List Word}
      {choices choices' : List Choice} (hc : c ≠ '-')
      (hshort : SpellsShort T (c :: cs) words choices rest) (h : Spells rest choices' operands) :
      Spells (('-' :: c :: cs) :: words) (choices ++ choices') operands

variable {T permute}

/-! ### Words -/

theorem element_eq_terminator {word : Word} (h : element word = .terminator) :
    word = ['-', '-'] := by
  rw [element.eq_def] at h
  split at h <;> cases h
  rfl

theorem element_eq_long {word text : Word} (h : element word = .long text) :
    word = '-' :: '-' :: text ∧ text ≠ [] := by
  rw [element.eq_def] at h
  split at h <;> cases h
  refine ⟨rfl, ?_⟩
  rintro rfl
  rename_i hterminator
  exact hterminator rfl

theorem element_long {text : Word} (h : text ≠ []) : element ('-' :: '-' :: text) = .long text := by
  cases text with
  | nil => exact absurd rfl h
  | cons c text => rfl

theorem element_short {c : Char} (h : c ≠ '-') (cs : List Char) :
    element ('-' :: c :: cs) = .short c cs := by
  rw [element.eq_def]
  split
  · rename_i heq
    simp [h] at heq
  · rename_i heq
    simp [h] at heq
  · rename_i heq
    simp at heq
    rw [heq.1, heq.2]
  · rename_i hshort
    exact absurd rfl (hshort c cs)

theorem scan_congr {s s' : State} (h : getoptLong T permute s = getoptLong T permute s') :
    scan T permute s = scan T permute s' := by
  cases hanswer : getoptLong T permute s' with
  | mk answer next =>
      cases answer with
      | done => rw [scan_of_done hanswer, scan_of_done (h.trans hanswer)]
      | complaint c => rw [scan_of_complaint hanswer, scan_of_complaint (h.trans hanswer)]
      | choice o => rw [scan_of_choice hanswer, scan_of_choice (h.trans hanswer)]

/-- The scan goes on behind an operand. -/
theorem scan_operand (hpermute : permute = true) {word : Word} (h : element word = .operand)
    (unread skipped : List Word) :
    scan T permute ⟨[], word :: unread, skipped⟩ =
      scan T permute ⟨[], unread, skipped ++ [word]⟩ := by
  apply scan_congr
  show nextElement T permute (word :: unread) skipped = _
  rw [nextElement, h]
  exact if_pos hpermute

theorem getoptLong_firstOperand (hpermute : permute = false) {word : Word}
    (h : element word = .operand) (unread skipped : List Word) :
    getoptLong T permute ⟨[], word :: unread, skipped⟩ =
      (.done, ⟨[], word :: unread, skipped⟩) := by
  rw [getoptLong_nil, nextElement, h, hpermute]
  rfl

/-- The scan goes into a word of short options. -/
theorem scan_short {word : Word} {c : Char} {cs : List Char} (h : element word = .short c cs)
    (unread skipped : List Word) :
    scan T permute ⟨[], word :: unread, skipped⟩ = scan T permute ⟨c :: cs, unread, skipped⟩ := by
  apply scan_congr
  show nextElement T permute (word :: unread) skipped = _
  rw [nextElement, h]
  rfl

/-! ### Long options -/

theorem names_of_long {text : Word} {o : LongOption} (h : T.long text = .option o) :
    Names T text o := by
  rw [Options.long] at h
  split at h
  · next p hp =>
    cases h
    exact .exact hp
  · next hnone =>
    rw [List.find?_eq_none] at hnone
    split at h
    · cases h
    · next p ps hfilter =>
      split_ifs at h with hall
      cases h
      have hmem : ∀ q, q ∈ o :: ps ↔ q ∈ T.longopts ∧ text.isPrefixOf q.name = true := by
        intro q
        rw [← hfilter, List.mem_filter]
      obtain ⟨ho, hbegins⟩ := (hmem o).mp List.mem_cons_self
      refine .abbreviation (fun q hq => by simpa using hnone q hq) ho
        (List.isPrefixOf_iff_prefix.mp hbegins) fun q hq hq' => ?_
      rcases List.mem_cons.mp ((hmem q).mpr ⟨hq, List.isPrefixOf_iff_prefix.mpr hq'⟩) with rfl | hps
      · exact ⟨rfl, rfl⟩
      · exact hall q hps

/-- What a text stands for is found, or an option that is used and returned the same way. -/
theorem Names.long {text : Word} {o : LongOption} (h : Names T text o) :
    ∃ p, T.long text = .option p ∧ p.requiredArgument = o.requiredArgument ∧ p.val = o.val := by
  cases h with
  | exact h =>
      refine ⟨o, ?_, rfl, rfl⟩
      rw [Options.long, h]
  | abbreviation hexact ho hbegins hunique =>
      have hnone : T.longopts.find? (fun p => p.name = text) = none := by
        rw [List.find?_eq_none]
        exact fun p hp => by simpa using hexact p hp
      have hmem : ∀ q, q ∈ T.longopts.filter (fun p => text.isPrefixOf p.name) ↔
          q ∈ T.longopts ∧ text <+: q.name := by
        intro q
        rw [List.mem_filter, List.isPrefixOf_iff_prefix]
      cases hfilter : T.longopts.filter (fun p => text.isPrefixOf p.name) with
      | nil =>
          have hnil := (hmem o).mpr ⟨ho, hbegins⟩
          rw [hfilter] at hnil
          cases hnil
      | cons p ps =>
          rw [hfilter] at hmem
          have hsame : ∀ q ∈ p :: ps, q.requiredArgument = o.requiredArgument ∧ q.val = o.val :=
            fun q hq => hunique q ((hmem q).mp hq).1 ((hmem q).mp hq).2
          obtain ⟨hp, hps⟩ := List.forall_mem_cons.mp hsame
          refine ⟨p, ?_, hp⟩
          rw [Options.long, hnone]
          simp only [hfilter]
          exact if_pos fun q hq => ⟨(hps q hq).1.trans hp.1.symm, (hps q hq).2.trans hp.2.symm⟩

theorem ne_of_notMem {text : Word} (h : '=' ∉ text) : ∀ c ∈ text, decide (c ≠ '=') = true :=
  fun _ hc => decide_eq_true fun heq => h (heq ▸ hc)

theorem takeWhile_text {text : Word} (h : '=' ∉ text) : text.takeWhile (· ≠ '=') = text :=
  List.takeWhile_eq_self_iff.mpr (ne_of_notMem h)

theorem dropWhile_text {text : Word} (h : '=' ∉ text) : text.dropWhile (· ≠ '=') = [] :=
  List.dropWhile_eq_nil_iff.mpr (ne_of_notMem h)

theorem takeWhile_append {text : Word} (h : '=' ∉ text) (arg : Word) :
    (text ++ '=' :: arg).takeWhile (· ≠ '=') = text := by
  rw [List.takeWhile_append_of_pos (ne_of_notMem h)]
  simp

theorem dropWhile_append {text : Word} (h : '=' ∉ text) (arg : Word) :
    (text ++ '=' :: arg).dropWhile (· ≠ '=') = '=' :: arg := by
  rw [List.dropWhile_append_of_pos (ne_of_notMem h)]
  simp

theorem SpellsLong.getoptLong {text : Word} {words rest : List Word} {choice : Choice}
    (h : SpellsLong T text words choice rest) (htext : text ≠ []) (skipped : List Word) :
    getoptLong T permute ⟨[], ('-' :: '-' :: text) :: words, skipped⟩ =
      (.choice choice, ⟨[], rest, skipped⟩) := by
  show nextElement T permute (('-' :: '-' :: text) :: words) skipped = _
  rw [nextElement, element_long htext]
  show longOption T text words skipped = _
  rw [longOption]
  cases h with
  | flag hname hequals hargument =>
      obtain ⟨p, hp, hpargument, hpval⟩ := hname.long
      rw [takeWhile_text hequals, dropWhile_text hequals, hp]
      simp only [hpargument, hargument, hpval]
  | attached hname hequals hargument =>
      obtain ⟨p, hp, hpargument, hpval⟩ := hname.long
      rw [takeWhile_append hequals, dropWhile_append hequals, hp]
      simp only [hpargument, hargument, hpval]
  | separate hname hequals hargument =>
      obtain ⟨p, hp, hpargument, hpval⟩ := hname.long
      rw [takeWhile_text hequals, dropWhile_text hequals, hp]
      simp only [hpargument, hargument, hpval]

theorem longOption_ne_done {text : Word} {words skipped : List Word} {s : State} :
    longOption T text words skipped ≠ (.done, s) := by
  rw [longOption]
  split
  · exact nofun
  · exact nofun
  · split <;> exact nofun

theorem longOption_choice {text : Word} {words skipped : List Word} {choice : Choice} {s : State}
    (h : longOption T text words skipped = (.choice choice, s)) :
    ∃ rest, s = ⟨[], rest, skipped⟩ ∧ SpellsLong T text words choice rest := by
  rw [longOption] at h
  by_cases hequals : '=' ∈ text
  · obtain ⟨name, arg, rfl, hname⟩ := List.eq_append_cons_of_mem hequals
    rw [takeWhile_append hname, dropWhile_append hname] at h
    split at h
    · cases h
    · cases h
    · next o ho =>
      cases hargument : o.requiredArgument with
      | true =>
          simp only [hargument] at h
          cases h
          exact ⟨words, rfl, .attached (names_of_long ho) hname hargument⟩
      | false =>
          simp only [hargument] at h
          cases h
  · rw [takeWhile_text hequals, dropWhile_text hequals] at h
    split at h
    · cases h
    · cases h
    · next o ho =>
      cases hargument : o.requiredArgument with
      | true =>
          cases words with
          | nil =>
              simp only [hargument] at h
              cases h
          | cons arg rest =>
              simp only [hargument] at h
              cases h
              exact ⟨rest, rfl, .separate (names_of_long ho) hequals hargument⟩
      | false =>
          simp only [hargument] at h
          cases h
          exact ⟨words, rfl, .flag (names_of_long ho) hequals hargument⟩

/-! ### Short options -/

theorem SpellsShort.scan {cs : List Char} {words rest : List Word} {choices : List Choice}
    (h : SpellsShort T cs words choices rest) (skipped : List Word) :
    scan T permute ⟨cs, words, skipped⟩ =
      (choices ++ (scan T permute ⟨[], rest, skipped⟩).1,
        (scan T permute ⟨[], rest, skipped⟩).2) := by
  induction h with
  | nil => rfl
  | @flag c cs words rest choices hc _ ih =>
      have hcall : getoptLong T permute ⟨c :: cs, words, skipped⟩ =
          (.choice ⟨c, none⟩, ⟨cs, words, skipped⟩) := by
        simp only [getoptLong_cons, shortOption, hc]
      rw [scan_of_choice hcall, ih]
      rfl
  | @attached c arg words hc harg =>
      have hcall : getoptLong T permute ⟨c :: arg, words, skipped⟩ =
          (.choice ⟨c, some arg⟩, ⟨[], words, skipped⟩) := by
        simp only [getoptLong_cons, shortOption, hc]
        exact if_pos harg
      exact scan_of_choice hcall
  | @separate c arg words hc =>
      have hcall : getoptLong T permute ⟨[c], arg :: words, skipped⟩ =
          (.choice ⟨c, some arg⟩, ⟨[], words, skipped⟩) := by
        simp only [getoptLong_cons, shortOption, hc]
        exact if_neg (not_not.mpr rfl)
      exact scan_of_choice hcall

theorem shortOption_ne_done {c : Char} {cs : List Char} {words skipped : List Word} {s : State} :
    shortOption T c cs words skipped ≠ (.done, s) := by
  unfold shortOption
  split
  · exact nofun
  · exact nofun
  · split_ifs
    · exact nofun
    · split <;> exact nofun

theorem shortOption_choice {c : Char} {cs : List Char} {words skipped : List Word}
    {choice : Choice} {s : State} (h : shortOption T c cs words skipped = (.choice choice, s)) :
    s.skipped = skipped ∧ ∀ choices rest, SpellsShort T s.nextchar s.unread choices rest →
      SpellsShort T (c :: cs) words (choice :: choices) rest := by
  unfold shortOption at h
  split at h
  · cases h
  · next hc =>
    cases h
    exact ⟨rfl, fun _ _ hrest => .flag hc hrest⟩
  · next hc =>
    split_ifs at h with hcs
    · cases h
      refine ⟨rfl, fun choices rest hrest => ?_⟩
      cases hrest
      exact .attached hc hcs
    · obtain rfl := not_not.mp hcs
      split at h
      · cases h
      · cases h
        refine ⟨rfl, fun choices rest hrest => ?_⟩
        cases hrest
        exact .separate hc

/-! ### The scan reads what is spelled -/

theorem Spells.scan {words operands : List Word} {choices : List Choice}
    (h : Spells T permute words choices operands) (skipped : List Word) :
    scan T permute ⟨[], words, skipped⟩ = (choices, .ok (skipped ++ operands)) := by
  induction h generalizing skipped with
  | nil => rw [scan_nil, List.append_nil]
  | terminator => exact scan_of_done (getoptLong_terminator _ skipped)
  | operand hpermute hword _ ih =>
      rw [scan_operand hpermute hword, ih, List.append_assoc, List.singleton_append]
  | firstOperand hpermute hword =>
      exact scan_of_done (getoptLong_firstOperand hpermute hword _ skipped)
  | long htext hlong _ ih => rw [scan_of_choice (hlong.getoptLong htext skipped), ih]
  | short hc hshort _ ih => rw [scan_short (element_short hc _), hshort.scan, ih]

/-- What is scanned from a state on is spelled by what it has left. -/
def Spelled (T : Options) (permute : Bool) (s : State) : Prop :=
  ∀ choices operands, scan T permute s = (choices, .ok operands) →
    ∃ here rest later os, SpellsShort T s.nextchar s.unread here rest ∧
      Spells T permute rest later os ∧ choices = here ++ later ∧ operands = s.skipped ++ os

section Step

variable {words skipped : List Word}

theorem spelled_shortOption {c : Char} {cs : List Char}
    (ih : ∀ s' : State, s'.size < State.size ⟨c :: cs, words, skipped⟩ → Spelled T permute s') :
    Spelled T permute ⟨c :: cs, words, skipped⟩ := by
  intro choices operands h
  rcases hcall : getoptLong T permute ⟨c :: cs, words, skipped⟩ with ⟨answer, next⟩
  cases answer with
  | done => exact absurd hcall shortOption_ne_done
  | complaint c => exact nomatch (scan_of_complaint hcall).symm.trans h
  | choice o =>
      rw [scan_of_choice hcall] at h
      obtain ⟨rfl, hoperands⟩ := Prod.mk.inj h
      obtain ⟨hskipped, hspells⟩ := shortOption_choice hcall
      obtain ⟨here, rest, later, os, hhere, hlater, hchoices, rfl⟩ :=
        ih next (size_getoptLong hcall) _ _ (Prod.ext rfl hoperands)
      exact ⟨o :: here, rest, later, os, hspells here rest hhere, hlater,
        congrArg (o :: ·) hchoices, congrArg (· ++ os) hskipped⟩

theorem spelled_operand {word : Word} (hword : element word = .operand)
    (ih : ∀ s' : State, s'.size < State.size ⟨[], word :: words, skipped⟩ → Spelled T permute s') :
    Spelled T permute ⟨[], word :: words, skipped⟩ := by
  intro choices operands h
  cases hpermute : permute with
  | true =>
      rw [scan_operand hpermute hword] at h
      have hsize : State.size ⟨[], words, skipped ++ [word]⟩ <
          State.size ⟨[], word :: words, skipped⟩ := by
        rw [size_cons word words skipped (skipped ++ [word])]
        omega
      obtain ⟨_, rest, later, os, hhere, hlater, rfl, rfl⟩ := ih _ hsize choices operands h
      cases hhere
      rw [hpermute] at hlater
      exact ⟨[], word :: words, later, word :: os, .nil, .operand rfl hword hlater, rfl,
        List.append_assoc skipped [word] os⟩
  | false =>
      rw [scan_of_done (getoptLong_firstOperand hpermute hword words skipped)] at h
      obtain ⟨rfl, hoperands⟩ := Prod.mk.inj h
      exact ⟨[], word :: words, [], word :: words, .nil, .firstOperand rfl hword, rfl,
        (Except.ok.inj hoperands).symm⟩

theorem spelled_terminator : Spelled T permute ⟨[], ['-', '-'] :: words, skipped⟩ := by
  intro choices operands h
  rw [scan_of_done (getoptLong_terminator words skipped)] at h
  obtain ⟨rfl, hoperands⟩ := Prod.mk.inj h
  exact ⟨[], _, [], words, .nil, .terminator, rfl, (Except.ok.inj hoperands).symm⟩

theorem spelled_longOption {text : Word} (htext : text ≠ [])
    (ih : ∀ s' : State, s'.size < State.size ⟨[], ('-' :: '-' :: text) :: words, skipped⟩ →
      Spelled T permute s') :
    Spelled T permute ⟨[], ('-' :: '-' :: text) :: words, skipped⟩ := by
  intro choices operands h
  rcases hcall : getoptLong T permute ⟨[], ('-' :: '-' :: text) :: words, skipped⟩
    with ⟨answer, next⟩
  have hlong := hcall
  rw [getoptLong_nil, nextElement, element_long htext] at hlong
  cases answer with
  | done => exact absurd hlong longOption_ne_done
  | complaint c => exact nomatch (scan_of_complaint hcall).symm.trans h
  | choice o =>
      obtain ⟨rest, rfl, hspells⟩ := longOption_choice hlong
      rw [scan_of_choice hcall] at h
      obtain ⟨rfl, hoperands⟩ := Prod.mk.inj h
      obtain ⟨_, _, later, os, hhere, hlater, hchoices, rfl⟩ :=
        ih _ (size_getoptLong hcall) _ _ (Prod.ext rfl hoperands)
      cases hhere
      exact ⟨[], _, o :: later, os, .nil, .long htext hspells hlater,
        congrArg (o :: ·) hchoices, rfl⟩

theorem spelled_shortWord {c : Char} {cs : List Char} (hc : c ≠ '-')
    (ih : ∀ s' : State, s'.size < State.size ⟨[], ('-' :: c :: cs) :: words, skipped⟩ →
      Spelled T permute s') :
    Spelled T permute ⟨[], ('-' :: c :: cs) :: words, skipped⟩ := by
  intro choices operands h
  rw [scan_short (element_short hc cs)] at h
  have hsize : State.size ⟨c :: cs, words, skipped⟩ <
      State.size ⟨[], ('-' :: c :: cs) :: words, skipped⟩ := by
    simp [State.size]
  obtain ⟨here, rest, later, os, hhere, hlater, rfl, rfl⟩ := ih _ hsize choices operands h
  exact ⟨[], _, here ++ later, os, .nil, .short hc hhere hlater, rfl, rfl⟩

end Step

theorem spelled (s : State) : Spelled T permute s := by
  induction hn : s.size using Nat.strong_induction_on generalizing s with
  | _ n ih =>
      have ih' : ∀ s' : State, s'.size < s.size → Spelled T permute s' :=
        fun s' hs' => ih _ (hn ▸ hs') s' rfl
      obtain ⟨nextchar, unread, skipped⟩ := s
      cases nextchar with
      | cons c cs => exact spelled_shortOption ih'
      | nil =>
          cases unread with
          | nil =>
              intro choices operands h
              rw [scan_nil] at h
              obtain ⟨rfl, hoperands⟩ := Prod.mk.inj h
              exact ⟨[], [], [], [], .nil, .nil, rfl,
                (Except.ok.inj hoperands).symm.trans (List.append_nil _).symm⟩
          | cons word words =>
              cases hword : element word with
              | operand => exact spelled_operand hword ih'
              | terminator =>
                  obtain rfl := element_eq_terminator hword
                  exact spelled_terminator
              | long text =>
                  obtain ⟨rfl, htext⟩ := element_eq_long hword
                  exact spelled_longOption htext ih'
              | short c cs =>
                  obtain ⟨rfl, hc⟩ := element_eq_short hword
                  exact spelled_shortWord hc ih'

theorem Spells.unique {words operands operands' : List Word} {choices choices' : List Choice}
    (h : Spells T permute words choices operands) (h' : Spells T permute words choices' operands') :
    choices = choices' ∧ operands = operands' := by
  obtain ⟨hchoices, hoperands⟩ := Prod.mk.inj ((h.scan []).symm.trans (h'.scan []))
  exact ⟨hchoices, Except.ok.inj hoperands⟩

/-- **Spelling.** A program that asks for all options gets choices and operands exactly if its
command line spells them. -/
theorem scan_start_iff {words operands : List Word} {choices : List Choice} :
    scan T permute (start words) = (choices, .ok operands) ↔
      Spells T permute words choices operands := by
  constructor
  · intro h
    obtain ⟨here, rest, later, os, hhere, hlater, rfl, rfl⟩ := spelled _ choices operands h
    cases hhere
    exact hlater
  · exact fun h => h.scan []

/-! ### What is returned -/

/-- An option of the program, with an argument exactly if it needs one. -/
def Offers (T : Options) (o : Choice) : Prop :=
  T.short o.val = some o.optarg.isSome ∨
    ∃ l ∈ T.longopts, l.val = o.val ∧ l.requiredArgument = o.optarg.isSome

theorem mem_optstring {c : Char} {b : Bool} (h : T.short c = some b) : c ∈ T.optstring ∧ c ≠ ':' := by
  unfold Options.short at h
  split_ifs at h with hc
  refine ⟨?_, fun hcolon => hc (.inl hcolon)⟩
  by_contra hmem
  have hdrop : T.optstring.dropWhile (· ≠ c) = [] :=
    List.dropWhile_eq_nil_iff.mpr fun x hx => decide_eq_true fun heq => hmem (heq ▸ hx)
  rw [hdrop] at h
  cases h

theorem Names.mem {text : Word} {o : LongOption} (h : Names T text o) : o ∈ T.longopts := by
  cases h with
  | exact h => exact List.mem_of_find?_eq_some h
  | abbreviation _ ho _ _ => exact ho

theorem SpellsLong.offers {text : Word} {words rest : List Word} {choice : Choice}
    (h : SpellsLong T text words choice rest) : Offers T choice := by
  cases h with
  | flag hname _ hargument => exact .inr ⟨_, hname.mem, rfl, hargument⟩
  | attached hname _ hargument => exact .inr ⟨_, hname.mem, rfl, hargument⟩
  | separate hname _ hargument => exact .inr ⟨_, hname.mem, rfl, hargument⟩

theorem SpellsShort.offers {cs : List Char} {words rest : List Word} {choices : List Choice}
    (h : SpellsShort T cs words choices rest) : ∀ o ∈ choices, Offers T o := by
  induction h with
  | nil => exact List.forall_mem_nil _
  | flag hc _ ih => exact List.forall_mem_cons.mpr ⟨.inl hc, ih⟩
  | attached hc _ => exact List.forall_mem_singleton.mpr (.inl hc)
  | separate hc => exact List.forall_mem_singleton.mpr (.inl hc)

/-- Only options of the program are spelled. -/
theorem Spells.offers {words operands : List Word} {choices : List Choice}
    (h : Spells T permute words choices operands) : ∀ o ∈ choices, Offers T o := by
  induction h with
  | nil => exact List.forall_mem_nil _
  | terminator => exact List.forall_mem_nil _
  | operand _ _ _ ih => exact ih
  | firstOperand => exact List.forall_mem_nil _
  | long _ hlong _ ih => exact List.forall_mem_cons.mpr ⟨hlong.offers, ih⟩
  | short _ hshort _ ih => exact List.forall_mem_append.mpr ⟨hshort.offers, ih⟩

end Spelling

end Getopt
