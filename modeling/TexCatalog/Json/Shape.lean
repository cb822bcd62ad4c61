import TexCatalog.Json.Draft
import TexCatalog.Text.Map
import TexCatalog.Text.Set

/-!
# Typed values in JSON

Readers for the shapes in which typed values are written: lists, tuples, records and tagged
alternatives. A record may also be written as the array of its fields in order, and a tagged
alternative as the array of its tag and its content. All of them go through a draft from the left,
so that the first fault of the text is the one that is met.

Where the content of an alternative stands in front of its tag, it is put aside until the tag is
known. What has been put aside is read with more patience: alternatives may be named by their
positions.
-/

namespace TexCatalog.Json

namespace Draft

def text : Draft → Decoded Text
  | .str t => .ok t
  | d => .error d.refusal

/-- The items of an array; they are smaller than the array. -/
def items : (d : Draft) → Decoded { items : List Draft // sizeOf items < sizeOf d }
  | .arr items => .ok ⟨items, by simp⟩
  | .deep (.arr _) => .error .syntactic
  | d => .error d.refusal

def each (f : Draft → Decoded α) : List Draft → Decoded (List α)
  | [] => .ok []
  | d :: more => do
    let a ← f d
    let as ← each f more
    return a :: as

def list (f : Draft → Decoded α) (d : Draft) : Decoded (List α) := do each f (← d.items).1

structure Next (items : List Draft) where
  head : Draft
  tail : List Draft
  head_lt : sizeOf head < sizeOf items
  tail_lt : sizeOf tail < sizeOf items

def next : (items : List Draft) → Decoded (Next items)
  | [] => .error .shape
  | d :: more =>
    .ok ⟨d, more, by rw [List.cons.sizeOf_spec]; omega, by rw [List.cons.sizeOf_spec]; omega⟩

/-- Nothing may be left behind the last item of a tuple; the text should end there. -/
def closed (rest : List Draft) (a : α) : Decoded α :=
  if rest.isEmpty then .ok a else .error .syntactic

def pair (f : Draft → Decoded α) (g : Draft → Decoded β) (d : Draft) : Decoded (α × β) := do
  let ⟨items, _⟩ ← d.items
  let ⟨d, items, _, _⟩ ← next items
  let a ← f d
  let ⟨d, items, _, _⟩ ← next items
  let b ← g d
  closed items (a, b)

def triple (f : Draft → Decoded α) (g : Draft → Decoded β) (h : Draft → Decoded γ) (d : Draft) :
    Decoded (α × β × γ) := do
  let ⟨items, _⟩ ← d.items
  let ⟨d, items, _, _⟩ ← next items
  let a ← f d
  let ⟨d, items, _, _⟩ ← next items
  let b ← g d
  let ⟨d, items, _, _⟩ ← next items
  let c ← h d
  closed items (a, b, c)

def intWithin (low high : Int) : Draft → Decoded Int
  | .num (.int n) => if low ≤ n ∧ n ≤ high then .ok n else .error .shape
  | d => .error d.refusal

def option (f : Draft → Decoded α) : Draft → Decoded (Option α)
  | .null => .ok none
  | d => (f d).map some

def textSet (d : Draft) : Decoded TextSet := do return TextSet.ofList (← d.list text)

def eachMember (f : Draft → Decoded α) : List (Draft × Draft) → Decoded (List (Text × α))
  | [] => .ok []
  | (.str name, d) :: more => do
    let a ← f d
    let as ← eachMember f more
    return (name, a) :: as
  | _ => .error .syntactic

/-- The members of an object as a map; of two members with one name the later counts. -/
def textMap (f : Draft → Decoded α) : Draft → Decoded (TextMap α)
  | .obj members => do return TextMap.ofList (← eachMember f members)
  | .deep (.obj _) => .error .syntactic
  | d => .error d.refusal

end Draft

/-- A field of a record: its name, whether it may be missing, and how its value is put into the
record. -/
structure RecordField (α : Type) where
  name : Text
  optional : Bool
  put : Draft → α → Decoded α

namespace Draft

/-- Put members into a record in the order in which they stand; `seen` are the names of the fields
that are there already. -/
def putMembers (fields : List (RecordField α)) :
    List Text → α → List (Draft × Draft) → Decoded α
  | seen, a, [] =>
    if fields.all fun f => f.optional || seen.contains f.name then .ok a else .error .shape
  | seen, a, (.str name, d) :: more =>
    match fields.find? (·.name == name) with
    | none => do
      d.skip
      putMembers fields seen a more
    | some f =>
      if seen.contains name then .error .shape
      else do
        let a ← f.put d a
        putMembers fields (name :: seen) a more
  | _, _, _ => .error .syntactic

def putItems : List (RecordField α) → α → List Draft → Decoded α
  | fields, a, [] => if fields.all (·.optional) then .ok a else .error .shape
  | [], _, _ :: _ => .error .syntactic
  | f :: fields, a, d :: more => do
    let a ← f.put d a
    putItems fields a more

/-- A record; `blank` has the values of the fields that are missing. -/
def record (fields : List (RecordField α)) (blank : α) : Draft → Decoded α
  | .obj members => putMembers fields [] blank members
  | .arr items => putItems fields blank items
  | .deep _ => .error .syntactic
  | d => .error d.refusal

/-- How a draft is read: as it stands in the text, or after it was put aside. -/
inductive Reading where
  | direct
  | aside
  deriving DecidableEq, Repr

/-- What has been put aside is known to be written well, so all that is wrong is its shape. -/
def Reading.settle : Reading → Decoded α → Decoded α
  | .direct, r => r
  | .aside, r => r.mapError fun _ => .shape

def named (tags : List (Text × κ)) (t : Text) : Decoded κ :=
  ((tags.find? (·.1 == t)).map Prod.snd).elim (.error .shape) .ok

/-- An alternative by its name; one that has been put aside also by its position. -/
def choice (tags : List (Text × κ)) (r : Reading) : Draft → Decoded κ
  | .str t => named tags t
  | .num (.int n) =>
    if r = .aside ∧ 0 ≤ n then (tags[n.toNat]?.map Prod.snd).elim (.error .shape) .ok
    else .error .shape
  | d => .error d.refusal

/-- Nothing is written as null; what has been put aside may also be an empty object. -/
def nothing (r : Reading) : Draft → Decoded Unit
  | .null => .ok ()
  | .obj [] => if r = .aside then .ok () else .error .shape
  | d => .error d.refusal

/-- A tag is a name, or an object with the name as its only key and nothing under it. -/
def tag (tags : List (Text × κ)) (r : Reading) : Draft → Decoded κ
  | .str t => named tags t
  | .obj ((name, d) :: more) => do
    let k ← name.choice tags r
    d.nothing r
    if more.isEmpty then return k else .error .syntactic
  | _ => .error .syntactic

/-- The next member that is a tag or a content: whether it is a content, its value, and the members
behind it. Other members are passed over. -/
def nextPart : List (Draft × Draft) → Decoded (Option (Bool × Draft × List (Draft × Draft)))
  | [] => .ok none
  | (.str name, d) :: more =>
    if name = ['t'] then .ok (some (false, d, more))
    else if name = ['c'] then .ok (some (true, d, more))
    else do
      d.skip
      nextPart more
  | _ => .error .syntactic

theorem sizeOf_nextPart {members more : List (Draft × Draft)} {content : Bool} {d : Draft}
    (h : nextPart members = .ok (some (content, d, more))) :
    sizeOf d < sizeOf members ∧ sizeOf more < sizeOf members := by
  induction members with
  | nil => simp [nextPart] at h
  | cons m rest ih =>
    obtain ⟨name, v⟩ := m
    unfold nextPart at h
    split at h
    · simp at h
    · next heq =>
      cases heq
      split at h
      · simp at h
        obtain ⟨_, rfl, rfl⟩ := h
        simp
        omega
      · split at h
        · simp at h
          obtain ⟨_, rfl, rfl⟩ := h
          simp
          omega
        · cases hs : v.skip with
          | error e => simp [hs, bind, Except.bind] at h
          | ok u =>
            simp only [hs, bind, Except.bind] at h
            have := ih h
            simp
            omega
    · simp at h

def noPart (members : List (Draft × Draft)) : Decoded Unit := do
  match ← nextPart members with
  | none => return
  | some _ => .error .shape

structure Tagged (d : Draft) (κ : Type) where
  kind : κ
  content : Option { c : Draft // sizeOf c < sizeOf d }
  reading : Reading
  behind : Decoded Unit

/-- The tag of an alternative and its content, which is an object with both under `t` and `c`, or
the array of both. -/
def tagged (tags : List (Text × κ)) (r : Reading) : (d : Draft) → Decoded (Tagged d κ)
  | .obj members =>
    match h : nextPart members with
    | .error e => .error e
    | .ok none => .error .shape
    | .ok (some (false, d, more)) => do
      let kind ← d.tag tags r
      match h' : nextPart more with
      | .error e => .error e
      | .ok none => return { kind, content := none, reading := r, behind := .ok () }
      | .ok (some (false, _, _)) => .error .shape
      | .ok (some (true, c, last)) =>
        have : sizeOf c < sizeOf (Draft.obj members) := by
          have := sizeOf_nextPart h
          have := sizeOf_nextPart h'
          simp
          omega
        return { kind, content := some ⟨c, this⟩, reading := r, behind := noPart last }
    | .ok (some (true, c, more)) => do
      have : sizeOf c < sizeOf (Draft.obj members) := by
        have := sizeOf_nextPart h
        simp
        omega
      let _ ← c.toJson
      match ← nextPart more with
      | some (false, d, last) =>
        let kind ← d.tag tags r
        return { kind, content := some ⟨c, this⟩, reading := .aside, behind := noPart last }
      | _ => .error .shape
  | .arr [] => .error .shape
  | .arr [d] => do
    let _ ← d.choice tags r
    .error .shape
  | .arr (d :: c :: rest) => do
    let kind ← d.choice tags r
    have : sizeOf c < sizeOf (Draft.arr (d :: c :: rest)) := by
      simp
      omega
    return { kind, content := some ⟨c, this⟩, reading := r, behind := closed rest () }
  | .deep _ => .error .syntactic
  | d => .error d.refusal

/-- The tag among the members of an alternative without content; `found` is the one that has been
there. -/
def plainTagAmong (tags : List (Text × κ)) (r : Reading) :
    Option κ → List (Draft × Draft) → Decoded κ
  | found, [] => found.elim (.error .shape) .ok
  | found, (.str name, d) :: more =>
    if name = ['t'] then
      if found.isSome then .error .shape
      else do
        let k ← d.choice tags r
        plainTagAmong tags r (some k) more
    else do
      let _ ← d.toJson
      plainTagAmong tags r found more
  | _, _ => .error .syntactic

/-- The tag of an alternative that has no content of its own: an object that has it under `t`, or
the array of nothing else. -/
def plainTag (tags : List (Text × κ)) (r : Reading) : Draft → Decoded κ
  | .obj members => plainTagAmong tags r none members
  | .arr [] => .error .shape
  | .arr (d :: more) => do
    let k ← d.choice tags r
    let rest ← toItems more
    if rest.isEmpty then return k else .error .shape
  | .deep _ => .error .syntactic
  | d => .error d.refusal

end Draft

def ofTextSet (s : TextSet) : Json := .arr (s.items.map .str)

def ofTextMap (f : α → Json) (m : TextMap α) : Json := .obj (m.entries.map fun e => (e.1, f e.2))

def tagged (tag : Text) (content : Json) : Json :=
  .obj [(("t" : Text), .str tag), (("c" : Text), content)]

def plainTag (tag : Text) : Json := .obj [(("t" : Text), .str tag)]

end TexCatalog.Json
