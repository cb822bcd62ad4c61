import TexCatalog.Form.Pattern

/-!
# The matches of a pattern

What a text has been read as where a pattern matches it: the name and the groups of a command, or an
environment with groups at the beginning of its body.
-/

namespace TexCatalog

namespace Pattern

open Source

variable {p : Pattern} {source text : Text} {inv : Invocation}

theorem accepts_iff {name : Text} {starred : Bool} :
    p.accepts name starred ↔ name ∈ p.names ∧ (starred → p.starred) := by
  unfold accepts
  cases starred <;> simp

theorem matchCommand?_iff : p.matchCommand? source = some inv ↔ ∃ name after a,
    commandName? source = some (name, after) ∧ p.accepts name (star after).1 ∧
      p.arguments? (star after).2 = some a ∧ Text.isBlank a.rest ∧
        inv = ⟨name, (star after).1, a.optional, a.args, [], source⟩ := by
  constructor
  · intro h
    unfold matchCommand? at h
    split at h
    · cases h
    · next name after hname =>
      split at h
      · next haccepts =>
        split at h
        · cases h
        · next a ha =>
          split at h
          · next hblank =>
            cases h
            exact ⟨name, after, a, hname, haccepts, ha, hblank, rfl⟩
          · cases h
      · cases h
  · rintro ⟨name, after, a, hname, haccepts, ha, hblank, rfl⟩
    simp only [matchCommand?, hname, haccepts, ha, hblank, if_true]

theorem matchEnvironment?_iff : p.matchEnvironment? source = some inv ↔ ∃ e rest a,
    environment? source = some (e, rest) ∧ p.accepts (splitStar e.name).1 (splitStar e.name).2 ∧
      p.arguments? e.body = some a ∧ Text.isBlank rest ∧
        inv = ⟨(splitStar e.name).1, (splitStar e.name).2, a.optional, a.args, a.rest, source⟩ := by
  constructor
  · intro h
    unfold matchEnvironment? at h
    split at h
    · cases h
    · next e rest he =>
      split at h
      · next haccepts =>
        split at h
        · cases h
        · next a ha =>
          split at h
          · next hblank =>
            cases h
            exact ⟨e, rest, a, he, haccepts, ha, hblank, rfl⟩
          · cases h
      · cases h
  · rintro ⟨e, rest, a, he, haccepts, ha, hblank, rfl⟩
    simp only [matchEnvironment?, he, haccepts, ha, hblank, if_true]

/-- A match has one of the names of its pattern. -/
theorem match?_name (h : p.match? text = some inv) : inv.name ∈ p.names := by
  unfold match? at h
  split at h
  · obtain ⟨name, after, a, _, haccepts, _, _, rfl⟩ := matchCommand?_iff.1 h
    exact (accepts_iff.1 haccepts).1
  · obtain ⟨e, rest, a, _, haccepts, _, _, rfl⟩ := matchEnvironment?_iff.1 h
    exact (accepts_iff.1 haccepts).1

end Pattern

end TexCatalog
