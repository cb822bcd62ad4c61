import Mathlib.Algebra.BigOperators.Group.List.Basic
import Mathlib.Data.List.Perm.Basic
import Mathlib.Logic.Relation
import TexCatalog.Proofs.StageRules
import TexCatalog.Proofs.StoreChanges

/-!
# Schedules

The items of a list are worked on independently: the work on each goes through its steps in order,
and the steps of different items may follow each other in any order. A run is one such order. What
can be said of every run is of two kinds: what holds if all items get done, and that they do get
done.
-/

namespace TexCatalog

open Store

/-- The work on an item: how far it can have come, and the steps that it takes with the files. -/
structure Work (α π β : Type) where
  waiting : π
  done : β → π
  Step : α → π → Store → π → Store → Prop

namespace Work

variable {α π β : Type}

structure State (α π : Type) where
  jobs : List (α × π)
  files : Store

inductive Onward (work : Work α π β) : State α π → State α π → Prop
  | job {front back : List (α × π)} {a : α} {now next : π} {s t : Store} :
      work.Step a now s next t →
      Onward work ⟨front ++ (a, now) :: back, s⟩ ⟨front ++ (a, next) :: back, t⟩

variable (work : Work α π β)

def start (items : List α) (s : Store) : State α π := ⟨items.map (·, work.waiting), s⟩

def Ends (w : State α π) (results : List β) : Prop :=
  w.jobs.map Prod.snd = results.map work.done

/-- From files `s` to files `t`, all items are done in some order of the steps. -/
def Completes (items : List α) (s : Store) (results : List β) (t : Store) : Prop :=
  ∃ w, Relation.ReflTransGen work.Onward (work.start items s) w ∧ work.Ends w results ∧ w.files = t

/-- Whatever the order of the steps, the work on no item gets stuck, and it ends as it is asked
to. -/
inductive Surely (Q : List β → Store → Prop) : State α π → Prop
  | intro {w : State α π} :
      (∀ job ∈ w.jobs, (∃ b, job.2 = work.done b) ∨
        ∃ next t, work.Step job.1 job.2 w.files next t) →
      (∀ results, work.Ends w results → Q results w.files) →
      (∀ v, work.Onward w v → Surely Q v) → Surely Q w

variable {work} {s t : Store}

theorem mem_jobs {front back : List (α × π)} {a : α} {now : π} {job : α × π} :
    job ∈ front ++ (a, now) :: back ↔ job = (a, now) ∨ job ∈ front ++ back := by
  simp only [List.mem_append, List.mem_cons]
  tauto

theorem Onward.items {v w : State α π} (h : work.Onward v w) :
    w.jobs.map Prod.fst = v.jobs.map Prod.fst := by
  cases h
  simp

theorem items_of_steps {v w : State α π} (h : Relation.ReflTransGen work.Onward v w) :
    w.jobs.map Prod.fst = v.jobs.map Prod.fst := by
  induction h with
  | refl => rfl
  | tail _ hstep ih => exact hstep.items.trans ih

theorem map_fst_start (items : List α) (s : Store) :
    (work.start items s).jobs.map Prod.fst = items := by
  rw [start, List.map_map]
  exact List.map_id items

theorem Completes.length_eq {items : List α} {results : List β}
    (h : work.Completes items s results t) : results.length = items.length := by
  obtain ⟨w, hsteps, hends, _⟩ := h
  have hitems := congrArg List.length ((items_of_steps hsteps).trans (map_fst_start items s))
  have hresults := congrArg List.length hends
  simp only [List.length_map] at hitems hresults
  rw [← hresults, hitems]

/-- What holds of every item that is done holds of each item and its result. -/
theorem Ends.forall₂ {R : α → β → Prop} {w : State α π} {results : List β}
    (h : work.Ends w results) (hjobs : ∀ a b, (a, work.done b) ∈ w.jobs → R a b) :
    List.Forall₂ R (w.jobs.map Prod.fst) results := by
  obtain ⟨jobs, files⟩ := w
  unfold Ends at h
  dsimp only at h hjobs ⊢
  induction jobs generalizing results with
  | nil =>
    obtain rfl := List.map_eq_nil_iff.1 h.symm
    exact .nil
  | cons job jobs ih =>
    cases results with
    | nil => cases h
    | cons b results =>
      obtain ⟨hjob, hmore⟩ := List.cons.inj h
      obtain ⟨a, now⟩ := job
      obtain rfl : now = work.done b := hjob
      exact .cons (hjobs a b (List.mem_cons_self ..))
        (ih hmore fun a b hmem => hjobs a b (List.mem_cons_of_mem _ hmem))

theorem Ends.flatMap {γ : Type} (f : π → List γ) {w : State α π} {results : List β}
    (h : work.Ends w results) :
    (w.jobs.flatMap fun job => f job.2) = results.flatMap fun b => f (work.done b) := by
  have hflat := congrArg (List.flatMap f) h
  rwa [List.flatMap_map, List.flatMap_map] at hflat

/-! ### The items one behind the other -/

/-- To do the items one behind the other is one of the orders, if what is done for each item is its
steps. -/
theorem completes_of_each {γ : Type} {f : α → Stage γ} {found : β → γ}
    (hf : ∀ {a s c t}, f a s = (.ok c, t) → ∃ b, found b = c ∧ ∀ front back,
      Relation.ReflTransGen work.Onward ⟨front ++ (a, work.waiting) :: back, s⟩
        ⟨front ++ (a, work.done b) :: back, t⟩)
    {items : List α} {cs : List γ} (h : Stage.each f items s = (.ok cs, t)) :
    ∃ results, cs = results.map found ∧ work.Completes items s results t := by
  suffices hsteps : ∀ front, ∃ (results : List β) (jobs : List (α × π)), cs = results.map found ∧
      jobs.map Prod.snd = results.map work.done ∧ Relation.ReflTransGen work.Onward
        ⟨front ++ items.map (·, work.waiting), s⟩ ⟨front ++ jobs, t⟩ by
    obtain ⟨results, jobs, hcs, hends, hrun⟩ := hsteps []
    exact ⟨results, hcs, _, hrun, hends, rfl⟩
  induction items generalizing s cs with
  | nil =>
    cases h
    exact fun front => ⟨[], [], rfl, rfl, .refl⟩
  | cons a items ih =>
    intro front
    rw [Stage.each_cons] at h
    obtain ⟨c, u, ha, h⟩ := Stage.bind_ok h
    obtain ⟨more, v, hmore, h⟩ := Stage.bind_ok h
    obtain ⟨rfl, rfl⟩ := Stage.pure_ok h
    obtain ⟨b, rfl, hjob⟩ := hf ha
    obtain ⟨results, jobs, rfl, hends, hrun⟩ := ih hmore (front ++ [(a, work.done b)])
    refine ⟨b :: results, (a, work.done b) :: jobs, rfl, ?_, (hjob front _).trans ?_⟩
    · rw [List.map_cons, hends, List.map_cons]
    · simpa only [List.append_assoc, List.singleton_append] using hrun

/-! ### The order of the items -/

/-- The changes that steps make for an item add up, whatever else is done between them. -/
theorem Onward.after (changes : α → π → List Change) {v w : State α π} (h : work.Onward v w)
    (hchanges : ∀ {a now next t}, (a, now) ∈ v.jobs → work.Step a now v.files next t →
      ∃ new, (changes a next).Perm (changes a now ++ new) ∧ After new v.files t)
    (hv : ∃ log, After log s v.files ∧
      log.Perm (v.jobs.flatMap fun job => changes job.1 job.2)) :
    ∃ log, After log s w.files ∧ log.Perm (w.jobs.flatMap fun job => changes job.1 job.2) := by
  cases h with
  | @job front back a now next t u hstep =>
    obtain ⟨log, hlog, hperm⟩ := hv
    obtain ⟨new, hnext, hnew⟩ := hchanges (mem_jobs.2 (.inl rfl)) hstep
    refine ⟨log ++ new, after_append.2 ⟨t, hlog, hnew⟩, ?_⟩
    simp only [List.flatMap_append, List.flatMap_cons] at hperm ⊢
    have hmiddle : (changes a now ++ back.flatMap fun job => changes job.1 job.2) ++ new |>.Perm
        (changes a next ++ back.flatMap fun job => changes job.1 job.2) := by
      rw [List.append_assoc]
      refine (List.perm_append_comm.append_left _).trans ?_
      rw [← List.append_assoc]
      exact hnext.symm.append_right _
    refine (hperm.append_right new).trans ?_
    rw [List.append_assoc]
    exact hmiddle.append_left _

/-! ### Work that cannot fail -/

theorem Surely.mono {Q R : List β → Store → Prop} {w : State α π} (h : work.Surely Q w)
    (hQR : ∀ results t, Q results t → R results t) : work.Surely R w := by
  induction h with
  | intro hgoes hends _ ih =>
    exact .intro hgoes (fun results hresults => hQR _ _ (hends results hresults)) ih

theorem Surely.next {Q : List β → Store → Prop} {front back : List (α × π)} {a : α} {now : π}
    (h : work.Surely Q ⟨front ++ (a, now) :: back, s⟩) (hnow : ∀ b, now ≠ work.done b) :
    ∃ next t, work.Step a now s next t ∧ work.Surely Q ⟨front ++ (a, next) :: back, t⟩ := by
  obtain ⟨hgoes, _, hmore⟩ := h
  rcases hgoes _ (mem_jobs.2 (.inl rfl)) with ⟨b, hb⟩ | ⟨next, t, hstep⟩
  · exact absurd hb (hnow b)
  · exact ⟨next, t, hstep, hmore _ (.job hstep)⟩

/-- What ends well in every order ends well when the items are done one behind the other. -/
theorem each_of_surely {γ : Type} {f : α → Stage γ} (found : β → γ) {Q : List β → Store → Prop}
    (hf : ∀ {a s front back}, work.Surely Q ⟨front ++ (a, work.waiting) :: back, s⟩ →
      ∃ b t, f a s = (.ok (found b), t) ∧ work.Surely Q ⟨front ++ (a, work.done b) :: back, t⟩)
    {items : List α} (h : work.Surely Q (work.start items s)) :
    ∃ results t, Stage.each f items s = (.ok (results.map found), t) ∧
      results.length = items.length ∧ Q results t := by
  suffices hmore : ∀ front before, front.map Prod.snd = before.map work.done →
      work.Surely Q ⟨front ++ items.map (·, work.waiting), s⟩ → ∃ results t,
        Stage.each f items s = (.ok (results.map found), t) ∧ results.length = items.length ∧
          Q (before ++ results) t from
    hmore [] [] rfl h
  clear h
  induction items generalizing s with
  | nil =>
    intro front before hbefore hsurely
    obtain ⟨_, hends, _⟩ := hsurely
    rw [List.map_nil, List.append_nil] at hends
    exact ⟨[], s, rfl, rfl, hends _ (by rw [Ends, hbefore, List.append_nil])⟩
  | cons a items ih =>
    intro front before hbefore hsurely
    obtain ⟨b, t, hb, hsurely⟩ := hf hsurely
    obtain ⟨results, u, hmore, hlength, hQ⟩ := ih (front ++ [(a, work.done b)]) (before ++ [b])
      (by rw [List.map_append, List.map_append, hbefore]; rfl)
      (by rwa [List.append_assoc, List.singleton_append])
    refine ⟨b :: results, u, ?_, congrArg (· + 1) hlength,
      by rwa [List.append_assoc, List.singleton_append] at hQ⟩
    rw [Stage.each_cons, Stage.bind_of_ok hb, Stage.bind_of_ok hmore]
    rfl

end Work

end TexCatalog
