import TexCatalog.Store.Basic

/-!
# Stages

A stage reads and writes files. What it wrote before a failure stays. Many items may be worked on in
any order. The order that is run is the one of a single worker, which has the items in batches: a
text that cannot be cut ends its batch, and any other failure ends the work.
-/

namespace TexCatalog

def Stage (α : Type) : Type := Store → Except Failure α × Store

namespace Stage

variable {α β : Type}

def pure (a : α) : Stage α := fun s => (.ok a, s)

def bind (x : Stage α) (f : α → Stage β) : Stage β := fun s =>
  match x s with
  | (.error e, s) => (.error e, s)
  | (.ok a, s) => f a s

instance : Monad Stage where
  pure := Stage.pure
  bind := Stage.bind

def store : Stage Store := fun s => (.ok s, s)

def ofExcept (x : Except Failure α) : Stage α := fun s => (x, s)

def fail (e : Failure) : Stage α := fun s => (.error e, s)

def textOf (path : Text) : Stage Text := fun s => ((s.read path).mapError (.file path), s)

def list (path : Text) : Stage (List (Text × Node)) := fun s =>
  ((s.list path).mapError (.file path), s)

def change (path : Text) (f : Store → Except FileFault Store) : Stage Unit := fun s =>
  match f s with
  | .ok t => (.ok (), t)
  | .error fault => (.error (.file path fault), s)

def write (path text : Text) : Stage Unit := change path (·.write path text)

def createDirectories (path : Text) : Stage Unit := fun s =>
  ((s.createDirectories path).1.mapError (.file path), (s.createDirectories path).2)

def writeInside (path text : Text) : Stage Unit := do
  if Path.parent path ≠ [] then createDirectories (Path.parent path)
  write path text

def endsWork : Except Failure β → Bool
  | .ok _ | .error .splitCharacter => false
  | .error _ => true

/-- What comes of items for which a stage is done in a row, up to the first failure. -/
def row (f : α → Stage β) : List α → Store → List (Except Failure β) × Store
  | [], s => ([], s)
  | a :: more, s =>
    match f a s with
    | (.error e, s) => ([.error e], s)
    | (.ok b, s) =>
      match row f more s with
      | (outcomes, s) => (.ok b :: outcomes, s)

theorem row_cons_error {f : α → Stage β} {a : α} {s t : Store} {e : Failure}
    (h : f a s = (.error e, t)) (more : List α) : row f (a :: more) s = ([.error e], t) := by
  rw [row, h]

theorem row_cons_ok {f : α → Stage β} {a : α} {s t : Store} {b : β} (h : f a s = (.ok b, t))
    (more : List α) : row f (a :: more) s = (.ok b :: (row f more t).1, (row f more t).2) := by
  rw [row, h]

/-- A row goes on behind a row that came to its end. -/
theorem row_append (f : α → Stage β) (bs : List α) :
    ∀ (as : List α) (s : Store), (row f as s).1.all (·.isOk) →
      row f (as ++ bs) s =
        ((row f as s).1 ++ (row f bs (row f as s).2).1, (row f bs (row f as s).2).2)
  | [], _, _ => rfl
  | a :: more, s, h => by
    match hf : f a s with
    | (.error e, t) => simp [row_cons_error hf, Except.isOk, Except.toBool] at h
    | (.ok b, t) =>
      rw [row_cons_ok hf, List.all_cons, Bool.and_eq_true] at h
      rw [List.cons_append, row_cons_ok hf, row_cons_ok hf, row_append f bs more t h.2,
        List.cons_append]

/-- What comes of items that are halved so many times into batches. A batch that breaks off lets the
half behind it be halved twice. -/
def batches (f : α → Stage β) (halvings : Nat) (items : List α) (s : Store) :
    List (Except Failure β) × Store :=
  if halvings = 0 ∨ items.length < 2 then row f items s
  else
    let first := batches f (halvings - 1) (items.take (items.length / 2)) s
    if first.1.any endsWork then first
    else
      let left := if first.1.any (!·.isOk) then 2 else halvings - 1
      let second := batches f left (items.drop (items.length / 2)) first.2
      (first.1 ++ second.1, second.2)
termination_by items.length
decreasing_by
  all_goals simp only [List.length_take, List.length_drop]; omega

/-- Batches that all come to their ends are a row. -/
theorem batches_eq_row (f : α → Stage β) (halvings : Nat) (items : List α) (s : Store)
    (h : (batches f halvings items s).1.all (·.isOk)) :
    batches f halvings items s = row f items s := by
  fun_induction batches f halvings items s with
  | case1 => rfl
  | case2 halvings items s hs first hany ih =>
    obtain ⟨x, hx, he⟩ := List.any_eq_true.1 hany
    have hok := List.all_eq_true.1 h x hx
    cases x with
    | ok _ => cases he
    | error _ => cases hok
  | case3 halvings items s hs first hany left second ih1 ih2 =>
    rw [List.all_append, Bool.and_eq_true] at h
    have h1 : first = row f (items.take (items.length / 2)) s := ih1 h.1
    have h2 : second = row f (items.drop (items.length / 2)) first.2 := ih2 h.2
    have ha := row_append f (items.drop (items.length / 2)) (items.take (items.length / 2)) s
      (h1 ▸ h.1)
    rw [List.take_append_drop, ← h1, ← h2] at ha
    exact ha.symm

def gather : List (Except Failure β) → Except Failure (List β)
  | [] => .ok []
  | .error e :: _ => .error e
  | .ok b :: more => (gather more).map (b :: ·)

def each (f : α → Stage β) (items : List α) : Stage (List β) := fun s =>
  match row f items s with
  | (outcomes, s) => (gather outcomes, s)

def eachInBatches (f : α → Stage β) (items : List α) : Stage (List β) := fun s =>
  match batches f 3 items s with
  | (outcomes, s) => (gather outcomes, s)

theorem isOk_of_gather : ∀ {outcomes : List (Except Failure β)} {bs : List β},
    gather outcomes = .ok bs → outcomes.all (·.isOk)
  | [], _, _ => rfl
  | .ok _ :: more, _, h => by
    match hm : gather more with
    | .ok _ => exact (isOk_of_gather hm : more.all (·.isOk))
    | .error _ => simp [gather, hm, Except.map] at h

/-- What succeeds in batches succeeds in a row. -/
theorem eachInBatches_eq_each {f : α → Stage β} {items : List α} {s : Store} {bs : List β}
    (h : (eachInBatches f items s).1 = .ok bs) :
    eachInBatches f items s = each f items s := by
  unfold eachInBatches each
  rw [batches_eq_row f 3 items s (isOk_of_gather h)]

end Stage

end TexCatalog
