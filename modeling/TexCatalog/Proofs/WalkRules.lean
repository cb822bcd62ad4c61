import TexCatalog.Proofs.Findings
import TexCatalog.Walk.Page

/-!
# Rules for walks

Steps of a walk form a lawful monad. `Walk.Ensures x P` says that whatever value and notes `x` gives
satisfy `P`, from any files and whether or not other runs of `x` fail; there is one rule for each
operation that a walk is made of.
-/

namespace TexCatalog

namespace Walk

variable {α β : Type}

theorem bind_ok {x : Walk α} {f : α → Walk β} {s s' : Store} {a : α} {m : Notes}
    (h : x s = (.ok a, m, s')) :
    (x >>= f) s = ((f a s').1, m.combine (f a s').2.1, (f a s').2.2) := by
  change Walk.bind x f s = _
  unfold Walk.bind
  rw [h]

theorem bind_error {x : Walk α} {f : α → Walk β} {s s' : Store} {e : Failure} {m : Notes}
    (h : x s = (.error e, m, s')) : (x >>= f) s = (.error e, m, s') := by
  change Walk.bind x f s = _
  unfold Walk.bind
  rw [h]

instance : LawfulMonad Walk := LawfulMonad.mk' Walk
  (by
    intro α x
    funext s
    rcases hx : x s with ⟨r, m, s'⟩
    cases r with
    | error e => exact bind_error hx
    | ok a =>
      refine (bind_ok hx).trans ?_
      change (Except.ok a, m.combine {}, s') = _
      rw [Notes.combine_empty])
  (by
    intro α β a f
    funext s
    refine (bind_ok (x := Pure.pure a) rfl).trans ?_
    rw [Notes.empty_combine])
  (by
    intro α β γ x f g
    funext s
    rcases hx : x s with ⟨r, m, s'⟩
    cases r with
    | error e => rw [bind_error hx, bind_error (bind_error hx)]
    | ok a =>
      rcases hf : f a s' with ⟨r', n, t⟩
      have hxf : (x >>= f) s = (r', m.combine n, t) := by rw [bind_ok hx, hf]
      rw [bind_ok hx]
      cases r' with
      | error e => rw [bind_error hxf, bind_error hf]
      | ok b => rw [bind_ok hxf, bind_ok hf, Notes.combine_assoc])

def Ensures (x : Walk α) (P : α → Notes → Prop) : Prop :=
  ∀ ⦃s a n t⦄, x s = (.ok a, n, t) → P a n

section

variable {x : Walk α} {f : α → Walk β} {P P' : α → Notes → Prop} {Q : β → Notes → Prop}

theorem Ensures.mono (hx : x.Ensures P) (h : ∀ a n, P a n → P' a n) : x.Ensures P' := by
  intro s a n t hs
  exact h a n (hx hs)

theorem ensures_any (x : Walk α) : x.Ensures fun _ _ => True := fun _ _ _ _ _ => trivial

theorem ensures_pure {a : α} (h : P a {}) : Ensures (Pure.pure a) P := by
  intro s b n t hs
  cases hs
  exact h

theorem ensures_bind (hx : x.Ensures P)
    (hf : ∀ a m, P a m → (f a).Ensures fun b n => Q b (m.combine n)) : (x >>= f).Ensures Q := by
  intro s b n t hs
  rcases hr : x s with ⟨r, m, s'⟩
  cases r with
  | error e =>
    rw [bind_error hr] at hs
    cases hs
  | ok a =>
    rw [bind_ok hr] at hs
    rcases hf' : f a s' with ⟨r', n', t'⟩
    rw [hf'] at hs
    cases hs
    exact hf a m (hx hr) hf'

/-- A step of which the value is put into a form that satisfies another condition. -/
theorem ensures_bind_pure {g : α → β} (hx : x.Ensures P) (h : ∀ a n, P a n → Q (g a) n) :
    (x >>= fun a => Pure.pure (g a)).Ensures Q := by
  refine ensures_bind hx fun a m hm => ?_
  apply ensures_pure
  rw [Notes.combine_empty]
  exact h a m hm

theorem ensures_note {g : Findings} {P : Unit → Notes → Prop} (h : P () { findings := g }) :
    Ensures (.note g) P := by
  intro s a n t hs
  cases hs
  exact h

theorem ensures_report {d : Diagnostic} {P : Unit → Notes → Prop}
    (h : P () { diagnostics := [d] }) : Ensures (.report d) P := by
  intro s a n t hs
  cases hs
  exact h

theorem ensures_ofExcept {r : Except Failure α} (h : ∀ a, r = .ok a → P a {}) :
    Ensures (.ofExcept r) P := by
  intro s a n t hs
  cases hs
  exact h a rfl

end

end Walk

@[simp] theorem Notes.combine_findings (a b : Notes) :
    (a.combine b).findings = a.findings.combine b.findings := rfl

def sourceContext (stem : Text) (bib : Bibliography) : WalkContext := ⟨stem, sourceReader, bib⟩

/-- Reading page source leaves no notes. -/
theorem ensures_read {stem : Text} {bib : Bibliography} {text : Text}
    {P : List Block → Notes → Prop} (h : P (Source.readBlocks text) {}) :
    ((sourceContext stem bib).read text).Ensures P := by
  intro s a n t hs
  cases hs
  exact h

end TexCatalog
