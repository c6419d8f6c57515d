import Mathlib.Logic.Relation
import Mathlib.Data.List.Infix

/-!
# Runs that keep a record

A state together with notes of what was done on the way to it, each with the state
it was done in. A condition on a run is a condition on its notes; a property of
the states of a run may be claimed only as far as all notes meet the condition.
`Leads` is the triple for one piece of a program under such a condition, and
`leads_of_reachable` carries an invariant through a run of any length.
-/

namespace Transition

/-- A state and the notes made on the way to it, newest first. -/
structure Recorded (σ ε : Type) where
  state : σ
  notes : List (ε × σ)

namespace Recorded

variable {σ ε : Type}

/-- Act on the state. -/
def change (act : σ → σ) (record : Recorded σ ε) : Recorded σ ε :=
  { record with state := act record.state }

/-- Note an event in the present state. -/
def note (event : ε) (record : Recorded σ ε) : Recorded σ ε :=
  { record with notes := (event, record.state) :: record.notes }

@[simp] theorem state_change (act : σ → σ) (record : Recorded σ ε) :
    (record.change act).state = act record.state := rfl

@[simp] theorem notes_change (act : σ → σ) (record : Recorded σ ε) :
    (record.change act).notes = record.notes := rfl

@[simp] theorem state_note (event : ε) (record : Recorded σ ε) :
    (record.note event).state = record.state := rfl

@[simp] theorem notes_note (event : ε) (record : Recorded σ ε) :
    (record.note event).notes = (event, record.state) :: record.notes := rfl

/-- Every note meets a condition. -/
def Meets (cond : ε → σ → Prop) (record : Recorded σ ε) : Prop :=
  ∀ entry ∈ record.notes, cond entry.1 entry.2

instance (cond : ε → σ → Prop) [∀ event state, Decidable (cond event state)]
    (record : Recorded σ ε) : Decidable (record.Meets cond) :=
  inferInstanceAs (Decidable (∀ entry ∈ record.notes, cond entry.1 entry.2))

variable {cond : ε → σ → Prop} {pre mid post : Recorded σ ε → Prop}
  {first second third : Recorded σ ε}

/-- What a longer record meets a shorter one meets. -/
theorem Meets.of_suffix (meets : second.Meets cond) (suffix : first.notes <:+ second.notes) :
    first.Meets cond :=
  fun entry member => meets entry (suffix.subset member)

@[simp] theorem meets_change (act : σ → σ) (record : Recorded σ ε) :
    (record.change act).Meets cond ↔ record.Meets cond := Iff.rfl

/-- A further note has to meet the condition in its state. -/
theorem meets_note {event : ε} {record : Recorded σ ε} :
    (record.note event).Meets cond ↔ cond event record.state ∧ record.Meets cond :=
  List.forall_mem_cons

/-- Only notes of one kind are added. -/
def Adds (kind : ε → Bool) (first second : Recorded σ ε) : Prop :=
  ∃ new, second.notes = new ++ first.notes ∧ ∀ entry ∈ new, kind entry.1

namespace Adds

variable {kind wider : ε → Bool}

theorem of_notes (notes : second.notes = first.notes) : Adds kind first second :=
  ⟨[], notes, fun _ member => absurd member List.not_mem_nil⟩

theorem refl (record : Recorded σ ε) : Adds kind record record := of_notes rfl

theorem note {event : ε} (allowed : kind event) (record : Recorded σ ε) :
    Adds kind record (record.note event) :=
  ⟨[(event, record.state)], rfl, fun entry member => by
    rw [List.mem_singleton.mp member]
    exact allowed⟩

/-- What is added by two steps. -/
theorem trans (left : Adds kind first second) (right : Adds kind second third) :
    Adds kind first third := by
  obtain ⟨early, before, earlyAllowed⟩ := left
  obtain ⟨late, after, lateAllowed⟩ := right
  refine ⟨late ++ early, by rw [after, before, List.append_assoc], fun entry member => ?_⟩
  exact (List.mem_append.mp member).elim (lateAllowed entry) (earlyAllowed entry)

/-- More kinds of notes may be added. -/
theorem mono (wide : ∀ event, kind event → wider event) (adds : Adds kind first second) :
    Adds wider first second := by
  obtain ⟨new, notes, allowed⟩ := adds
  exact ⟨new, notes, fun entry member => wide _ (allowed entry member)⟩

/-- The notes so far are kept. -/
theorem suffix (adds : Adds kind first second) : first.notes <:+ second.notes := by
  obtain ⟨new, notes, -⟩ := adds
  exact ⟨new, notes.symm⟩

/-- What is kept by each note of the kind is kept when such notes are added. -/
theorem induct (holds : List (ε × σ) → Prop) (adds : Adds kind first second)
    (start : holds first.notes)
    (cons : ∀ {event state notes}, kind event → holds notes → holds ((event, state) :: notes)) :
    holds second.notes := by
  obtain ⟨new, notes, allowed⟩ := adds
  rw [notes]
  clear notes
  induction new with
  | nil => exact start
  | cons entry new ih =>
      exact cons (allowed entry (List.mem_cons_self ..))
        (ih fun entry member => allowed entry (List.mem_cons_of_mem _ member))

end Adds

/-- A piece of a program that starts in one recorded state and ends in another: it
keeps the notes, and if all of them meet the condition, it leads from one property
to another. -/
structure Leads (cond : ε → σ → Prop) (pre post : Recorded σ ε → Prop)
    (first second : Recorded σ ε) : Prop where
  keeps : first.notes <:+ second.notes
  holds : second.Meets cond → pre first → post second

/-- A property that a piece of a program keeps. -/
abbrev Keeps (cond : ε → σ → Prop) (inv : Recorded σ ε → Prop) : Recorded σ ε → Recorded σ ε → Prop :=
  Leads cond inv inv

namespace Leads

theorem refl (record : Recorded σ ε) : Leads cond pre pre record record :=
  ⟨List.suffix_refl _, fun _ => id⟩

theorem trans (left : Leads cond pre mid first second) (right : Leads cond mid post second third) :
    Leads cond pre post first third where
  keeps := left.keeps.trans right.keeps
  holds meets start := right.holds meets (left.holds (meets.of_suffix right.keeps) start)

/-- The precondition may be stronger, the postcondition weaker. -/
theorem weaken {pre' post' : Recorded σ ε → Prop} (lead : Leads cond pre post first second)
    (before : first.Meets cond → pre' first → pre first)
    (after : second.Meets cond → post second → post' second) :
    Leads cond pre' post' first second where
  keeps := lead.keeps
  holds meets start := after meets (lead.holds meets (before (meets.of_suffix lead.keeps) start))

/-- A change leads where it leads to. -/
theorem change {act : σ → σ} (holds : first.Meets cond → pre first → post (first.change act)) :
    Leads cond pre post first (first.change act) :=
  ⟨List.suffix_refl _, holds⟩

end Leads

/-- An invariant that every step keeps holds in every state of a run whose notes
meet the condition. -/
theorem holds_of_reachable {step : Recorded σ ε → Recorded σ ε → Prop} {inv : Recorded σ ε → Prop}
    {start : Recorded σ ε} (initial : inv start)
    (keeps : ∀ {first second}, step first second → Keeps cond inv first second)
    {record : Recorded σ ε} (reached : Relation.ReflTransGen step start record)
    (meets : record.Meets cond) : inv record := by
  have lead : Keeps cond inv start record := by
    induction reached with
    | refl => exact Leads.refl start
    | tail _ last ih => exact (ih (meets.of_suffix (keeps last).keeps)).trans (keeps last)
  exact lead.holds meets initial

end Recorded

/-- Steps that can be taken one after the other are a run. -/
theorem reflTransGen_of_foldlM {σ α : Type} {act : σ → α → Option σ} {step : σ → σ → Prop}
    {first : σ} (sound : ∀ {first label second}, act first label = some second → step first second)
    {labels : List α} {last : σ} (ran : labels.foldlM act first = some last) :
    Relation.ReflTransGen step first last := by
  induction labels generalizing first with
  | nil => exact Option.some.inj ran ▸ .refl
  | cons label labels ih =>
      rw [List.foldlM_cons] at ran
      obtain ⟨second, stepped, rest⟩ := Option.bind_eq_some_iff.mp ran
      exact .head (sound stepped) (ih rest)

/-- What is evaluated at the end of a run that there is. -/
theorem exists_of_any {σ : Type} {ran : Option σ} (check : σ → Prop) [DecidablePred check]
    (ends : ran.any fun last => decide (check last)) : ∃ last, ran = some last ∧ check last := by
  obtain ⟨last, ran, checked⟩ := (Option.any_eq_true _ _).mp ends
  exact ⟨last, ran, of_decide_eq_true checked⟩

end Transition
