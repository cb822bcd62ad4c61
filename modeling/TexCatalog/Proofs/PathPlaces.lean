import Mathlib.Data.List.Basic
import TexCatalog.Proofs.CommentLines
import TexCatalog.Store.Basic

/-!
# Places of paths

Where a path leads does not depend on what a store holds: a store only decides whether the path can
be followed. So each path has a place, and the place of a name in a directory determines the name.
-/

namespace TexCatalog

namespace Path

open Text

def onward (place part : Text) : Text :=
  if part = ['.'] then place else if part = ['.', '.'] then above place else join place part

def place (path : Text) : Text := (steps path).foldl onward (origin path)

structure IsName (name : Text) : Prop where
  ne_nil : name ≠ []
  not_dots : ¬isDots name
  slash : '/' ∉ name

theorem IsName.head_ne {name : Text} (h : IsName name) : name.head? ≠ some '/' :=
  fun hhead => h.slash (List.mem_of_head? hhead)

theorem onward_name {name : Text} (h : IsName name) (place : Text) :
    onward place name = join place name := by
  have hdots := h.not_dots
  simp only [isDots, Bool.or_eq_true, beq_iff_eq, not_or] at hdots
  rw [onward, if_neg hdots.1, if_neg hdots.2]

theorem mem_split {sep : Char} {s part : Text} (h : part ∈ split sep s) : sep ∉ part := by
  induction s generalizing part with
  | nil =>
    obtain rfl := List.mem_singleton.1 h
    exact List.not_mem_nil
  | cons c s ih =>
    unfold split splitWhere at h
    split at h
    · rcases List.mem_cons.1 h with rfl | h
      · exact List.not_mem_nil
      · exact ih h
    · next hc =>
      have hne : sep ≠ c := fun heq => hc (by rw [heq, beq_self_eq_true])
      cases hs : splitWhere (· == sep) s with
      | nil => exact absurd hs (splitWhere_ne_nil _ s)
      | cons first more =>
        rw [hs, consHead] at h
        rcases List.mem_cons.1 h with rfl | h
        · rw [List.mem_cons, not_or]
          exact ⟨hne, ih (by unfold split; rw [hs]; exact List.mem_cons_self ..)⟩
        · exact ih (by unfold split; rw [hs]; exact List.mem_cons_of_mem _ h)

theorem mem_steps {path part : Text} (h : part ∈ steps path) : part ≠ [] ∧ '/' ∉ part := by
  obtain ⟨hmem, hne⟩ := List.mem_filter.1 h
  exact ⟨by simpa using hne, mem_split hmem⟩

theorem steps_join (dir : Text) {name : Text} (h : IsName name) :
    steps (join dir name) = steps dir ++ [name] := by
  have hname : split '/' name = [name] := split_of_not_mem h.slash
  have hkeep : [name].filter (· ≠ []) = [name] := by simp [h.ne_nil]
  unfold join
  rw [if_neg h.head_ne]
  split
  · next hdir =>
    rcases hdir with rfl | hdir
    · rw [List.nil_append, steps, hname, hkeep]
      rfl
    · obtain ⟨front, rfl⟩ := List.getLast?_eq_some_iff.1 hdir
      simp only [steps, List.append_assoc, List.singleton_append, split_cut, List.filter_append,
        hname, hkeep]
      simp [split, splitWhere]
  · simp only [steps, split_cut, List.filter_append, hname, hkeep]

theorem origin_join (dir : Text) {name : Text} (h : IsName name) :
    origin (join dir name) = origin dir := by
  unfold join origin
  rw [if_neg h.head_ne]
  split
  · next hdir =>
    cases dir with
    | nil => simp [h.head_ne]
    | cons c dir => rfl
  · next hdir =>
    cases dir with
    | nil => simp at hdir
    | cons c dir => rfl

theorem place_join (dir : Text) {name : Text} (h : IsName name) :
    place (join dir name) = join (place dir) name := by
  rw [place, steps_join dir h, origin_join dir h, List.foldl_append]
  exact onward_name h _

/-- The places that paths lead to. -/
inductive IsPlace : Text → Prop
  | here : IsPlace []
  | root : IsPlace ['/']
  | around {place : Text} : isAround place → IsPlace place
  | inside {place name : Text} : IsPlace place → IsName name → IsPlace (join place name)

theorem getLast?_join_of_ne_nil (dir : Text) {name : Text} (h : name ≠ []) :
    (join dir name).getLast? = name.getLast? := by
  unfold join
  split
  · rfl
  · split
    · exact List.getLast?_append_of_ne_nil dir h
    · rw [List.getLast?_append_of_ne_nil dir (List.cons_ne_nil '/' name),
        List.getLast?_cons_of_ne_nil h]

theorem getLast?_join (dir : Text) {name : Text} (h : IsName name) :
    (join dir name).getLast? = name.getLast? :=
  getLast?_join_of_ne_nil dir h.ne_nil

/-- Of all places, only the root ends with a slash. -/
theorem IsPlace.getLast? {place : Text} (h : IsPlace place) (hroot : place ≠ ['/']) :
    place.getLast? ≠ some '/' := by
  cases h with
  | here => exact fun h => nomatch h
  | root => exact absurd rfl hroot
  | around haround =>
    intro hlast
    obtain ⟨front, rfl⟩ := List.getLast?_eq_some_iff.1 hlast
    rw [isAround, split_cut, List.all_append, Bool.and_eq_true] at haround
    exact absurd haround.2 (by decide)
  | inside _ hname =>
    rw [getLast?_join _ hname]
    exact fun hlast => hname.slash (List.mem_of_getLast? hlast)

theorem not_isAround_join (dir : Text) {name : Text} (h : IsName name) :
    ¬isAround (join dir name) := by
  intro haround
  have hmem : name ∈ steps (join dir name) := by
    rw [steps_join dir h]
    exact List.mem_append_right _ (List.mem_singleton_self name)
  have hdots := List.all_eq_true.1 haround name (List.mem_filter.1 hmem).1
  exact h.not_dots (by rw [isDots, hdots, Bool.or_true])

theorem above_join {dir name : Text} (hdir : IsPlace dir) (h : IsName name) :
    above (join dir name) = dir := by
  have hne : join dir name ≠ [] := fun hnil => by
    have hlast := getLast?_join dir h
    rw [hnil, List.getLast?_nil, eq_comm, List.getLast?_eq_none_iff] at hlast
    exact h.ne_nil hlast
  rw [above, if_neg hne, if_neg (not_isAround_join dir h), join, if_neg h.head_ne]
  by_cases hnil : dir = []
  · rw [if_pos (.inl hnil), hnil, List.nil_append,
      cut?_eq_none_iff_cutLast?.1 (cut?_of_not_mem h.slash)]
  · by_cases hroot : dir = ['/']
    · subst hroot
      have hcut : cutLast? ['/'] ('/' :: name) = some ([], name) := cutLast?_char '/' [] h.slash
      rw [if_pos (.inr rfl), List.singleton_append, hcut]
      rfl
    · rw [if_neg (not_or.2 ⟨hnil, hdir.getLast? hroot⟩), cutLast?_char '/' dir h.slash]
      exact if_neg hnil

theorem IsPlace.above {place : Text} (h : IsPlace place) : IsPlace (above place) := by
  cases h with
  | here => exact .around (by decide)
  | root => exact .root
  | around haround =>
    have hne : place ≠ [] := by
      rintro rfl
      exact absurd haround (by decide)
    rw [Path.above, if_neg hne, if_pos haround]
    refine .around ?_
    rw [isAround, split_cut, List.all_append, Bool.and_eq_true]
    exact ⟨haround, by decide⟩
  | inside hdir hname => rwa [above_join hdir hname]

theorem IsPlace.onward {place part : Text} (h : IsPlace place) (hne : part ≠ [])
    (hslash : '/' ∉ part) : IsPlace (onward place part) := by
  unfold Path.onward
  split
  · exact h
  · split
    · exact h.above
    · next hdot hdots => exact h.inside ⟨hne, by simp [isDots, hdot, hdots], hslash⟩

/-- Every part of a path leads from a place to a place. -/
theorem IsPlace.foldl_onward {place : Text} (h : IsPlace place) {parts : List Text}
    (hparts : ∀ part ∈ parts, part ≠ [] ∧ '/' ∉ part) :
    IsPlace (parts.foldl Path.onward place) := by
  induction parts generalizing place with
  | nil => exact h
  | cons part parts ih =>
    obtain ⟨hpart, hparts⟩ := List.forall_mem_cons.1 hparts
    exact ih (h.onward hpart.1 hpart.2) hparts

theorem isPlace_origin (path : Text) : IsPlace (origin path) := by
  unfold origin
  split
  · exact .root
  · exact .here

theorem isPlace_place (path : Text) : IsPlace (place path) :=
  (isPlace_origin path).foldl_onward fun _ => mem_steps

/-- Different directories have no entry in common. -/
theorem join_ne_join {dir dir' name name' : Text} (h : place dir ≠ place dir')
    (hname : IsName name) (hname' : IsName name') :
    join (place dir) name ≠ join (place dir') name' := by
  intro heq
  have habove := congrArg above heq
  rw [above_join (isPlace_place dir) hname, above_join (isPlace_place dir') hname'] at habove
  exact h habove

def lastName (place : Text) : Text := (place.reverse.takeWhile (· ≠ '/')).reverse

theorem lastName_join (dir : Text) {name : Text} (h : IsName name) :
    lastName (join dir name) = name := by
  have hall : ∀ c ∈ name.reverse, decide (c ≠ '/') := by
    intro c hc
    simpa using fun heq : c = '/' => h.slash (heq ▸ List.mem_reverse.1 hc)
  unfold join lastName
  rw [if_neg h.head_ne]
  split
  · next hdir =>
    rw [List.reverse_append, List.takeWhile_append_of_pos hall]
    rcases hdir with rfl | hdir
    · simp
    · obtain ⟨front, rfl⟩ := List.getLast?_eq_some_iff.1 hdir
      simp
  · rw [List.reverse_append, List.reverse_cons, List.append_assoc,
      List.takeWhile_append_of_pos hall]
    simp

theorem join_inj {dir name name' : Text} (h : IsName name) (h' : IsName name')
    (heq : join dir name = join dir name') : name = name' := by
  rw [← lastName_join dir h, heq, lastName_join dir h']

theorem getLast?_filter {α : Type} {p : α → Bool} {l : List α} {a : α} (h : l.getLast? = some a)
    (ha : p a) : (l.filter p).getLast? = some a := by
  obtain ⟨front, rfl⟩ := List.getLast?_eq_some_iff.1 h
  simp [List.filter_append, ha]

/-- The last step of a path is its file name if it is a name. -/
theorem fileName?_eq {path name : Text} (h : (steps path).getLast? = some name)
    (hdots : ¬isDots name) : fileName? path = some name := by
  simp only [isDots, Bool.or_eq_true, beq_iff_eq, not_or] at hdots
  have hne : name ≠ [] := (mem_steps (List.mem_of_getLast? h)).1
  have hlast : (parts path).getLast? = some name := by
    obtain ⟨first, more, hsplit⟩ := List.exists_cons_of_ne_nil (split_ne_nil '/' path)
    have hsteps : steps path = (if first = [] then [] else [first]) ++ more.filter (· ≠ []) := by
      rw [steps, hsplit, List.filter_cons]
      split <;> simp_all
    have hparts : parts path = (if first = [] then [] else [first]) ++
        (more.filter (· ≠ [])).filter (· ≠ ['.']) := by
      simp [parts, hsplit, List.filter_filter, Bool.and_comm]
    rw [hsteps, List.getLast?_append] at h
    rw [hparts, List.getLast?_append]
    cases hmore : (more.filter (· ≠ [])).getLast? with
    | none =>
      rw [List.getLast?_eq_none_iff] at hmore
      rw [hmore] at h ⊢
      exact h
    | some last =>
      rw [hmore] at h
      cases h
      rw [getLast?_filter hmore (by simpa using hdots.1)]
      rfl
  simp only [fileName?, hlast, hdots.1, hdots.2, or_self, if_false]

/-- The last part of a path ends as the path does. -/
theorem getLast?_split {path : Text} {c : Char} (h : path.getLast? = some c) (hslash : c ≠ '/') :
    ∃ part, (split '/' path).getLast? = some part ∧ part.getLast? = some c := by
  induction path with
  | nil => cases h
  | cons d path ih =>
    rcases List.eq_nil_or_concat path with rfl | ⟨front, last, rfl⟩
    · obtain rfl : d = c := by simpa using h
      exact ⟨[d], by simp [split, splitWhere, consHead, hslash], rfl⟩
    · have hlast : (front.concat last).getLast? = some c := by
        rwa [List.getLast?_cons_of_ne_nil (by simp)] at h
      obtain ⟨part, hpart, hend⟩ := ih hlast
      unfold split at hpart ⊢
      rw [splitWhere]
      rcases hrest : splitWhere (· == '/') (front.concat last) with _ | ⟨first, more⟩
      · exact absurd hrest (splitWhere_ne_nil _ _)
      · rw [hrest] at hpart
        split
        · exact ⟨part, by rw [List.getLast?_cons_of_ne_nil (by simp), hpart], hend⟩
        · cases more with
          | nil =>
            obtain rfl : first = part := by simpa using hpart
            have hne : first ≠ [] := by
              rintro rfl
              cases hend
            exact ⟨d :: first, rfl, by rw [List.getLast?_cons_of_ne_nil hne, hend]⟩
          | cons second more =>
            rw [List.getLast?_cons_of_ne_nil (by simp)] at hpart
            exact ⟨part, by rw [consHead, List.getLast?_cons_of_ne_nil (by simp), hpart], hend⟩

/-- A path that ends with a letter leads to a place that ends with it. -/
theorem getLast?_place {path : Text} {c : Char} (h : path.getLast? = some c) (hslash : c ≠ '/')
    (hdot : c ≠ '.') : (place path).getLast? = some c := by
  obtain ⟨part, hpart, hend⟩ := getLast?_split h hslash
  have hne : part ≠ [] := by
    rintro rfl
    cases hend
  have hlast : (steps path).getLast? = some part := getLast?_filter hpart (by simpa using hne)
  obtain ⟨front, hsteps⟩ := List.getLast?_eq_some_iff.1 hlast
  have hname : IsName part := by
    refine ⟨hne, fun hdots => ?_, mem_split (List.mem_of_getLast? hpart)⟩
    simp only [isDots, Bool.or_eq_true, beq_iff_eq] at hdots
    rcases hdots with rfl | rfl
    all_goals exact hdot (by simpa using hend.symm)
  rw [place, hsteps, List.foldl_append, List.foldl_cons, List.foldl_nil, onward_name hname,
    getLast?_join _ hname, hend]
theorem splitName_append {stem extension : Text} (hstem : stem ≠ []) (hext : '.' ∉ extension) :
    splitName (stem ++ '.' :: extension) = (stem, some extension) := by
  simp only [splitName, cutLast?_char '.' stem hext, if_neg hstem]

theorem fileName?_slash {path name : Text} (h : fileName? path = some name) : '/' ∉ name := by
  unfold fileName? at h
  split at h
  · cases h
  · next last hlast =>
    split at h
    · cases h
    · cases h
      have hmem : name ∈ Text.split '/' path := by
        have hparts := List.mem_of_getLast? hlast
        unfold parts at hparts
        split at hparts
        · cases hparts
        · next first more hsplit =>
          rw [hsplit]
          rcases List.mem_append.1 hparts with hfirst | hmore
          · split at hfirst
            · cases hfirst
            · rw [List.mem_singleton.1 hfirst]
              exact List.mem_cons_self ..
          · exact List.mem_cons_of_mem first (List.mem_filter.1 hmore).1
      exact mem_split hmem

theorem slash_stem (path : Text) : '/' ∉ stem path := by
  unfold stem
  cases hname : fileName? path with
  | none => exact List.not_mem_nil
  | some name =>
    have hslash := fileName?_slash hname
    change '/' ∉ (splitName name).1
    unfold splitName
    split
    · exact hslash
    · next front extension hcut =>
      split
      · exact hslash
      · rw [cutLast?_eq hcut] at hslash
        exact fun hmem => hslash (by simp [hmem])

end Path

end TexCatalog
