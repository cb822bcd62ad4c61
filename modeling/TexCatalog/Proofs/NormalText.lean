import TexCatalog.Proofs.BalancedGroups
import TexCatalog.Proofs.SourceNodes
import TexCatalog.Proofs.SpelledText

/-!
# The form of running text

What is read from running text has a normal form: neither two texts nor two spaces stand side by
side, at any depth, and no text is empty but that of an empty address. Merging leaves what has this
form as it is, and a group in braces has it before it is put in its place. So braces around all of a
text change nothing.
-/

namespace TexCatalog

open Source

mutual

/-- A node with content in normal form. No text is empty except for that of an empty address, and
there are no notes. -/
def Inline.Normal : Inline → Prop
  | .text t => t ≠ []
  | .link attr content target =>
    Inline.link attr content target = addressLink [] ∨ Normal content
  | .styled _ content | .quoted _ content | .image _ content _ | .span _ content
  | .crossRef _ content _ => Normal content
  | .code .. | .space | .softBreak | .lineBreak | .math .. | .raw .. => True
  | .note _ => False

def Normal : List Inline → Prop
  | [] => True
  | node :: more => node.Normal ∧ (∀ next ∈ more.head?, ¬Merges node next) ∧ Normal more

end

variable {node : Inline} {nodes : List Inline}

theorem normal_nil : Normal [] := by
  rw [Normal]
  trivial

theorem normal_cons {more : List Inline} : Normal (node :: more) ↔
    node.Normal ∧ (∀ next ∈ more.head?, ¬Merges node next) ∧ Normal more := by
  rw [Normal]

theorem normal_singleton (h : node.Normal) : Normal [node] := by
  refine normal_cons.2 ⟨h, ?_, normal_nil⟩
  intro next hnext
  cases hnext

theorem Normal.forall_mem (h : Normal nodes) : ∀ node ∈ nodes, node.Normal := by
  induction nodes with
  | nil => exact List.forall_mem_nil _
  | cons node more ih =>
    obtain ⟨hnode, _, hmore⟩ := normal_cons.1 h
    exact List.forall_mem_cons.2 ⟨hnode, ih hmore⟩

namespace Source

/-- Merging neighbours gives normal form. -/
theorem normalize_normal (h : ∀ node ∈ nodes, node.Normal) : Normal (normalize nodes) := by
  induction nodes with
  | nil => exact normal_nil
  | cons node more ih =>
    obtain ⟨hnode, hmore⟩ := List.forall_mem_cons.1 h
    have hrest := ih hmore
    by_cases hnext : ∀ next ∈ (normalize more).head?, ¬Merges node next
    · rw [normalize_cons hnext]
      exact normal_cons.2 ⟨hnode, hnext, hrest⟩
    · push Not at hnext
      obtain ⟨next, hhead, hmerges⟩ := hnext
      obtain ⟨rest, hmore⟩ := List.head?_eq_some_iff.1 hhead
      rw [hmore] at hrest
      unfold normalize
      rw [hmore]
      unfold Merges at hmerges
      split at hmerges
      · next a b =>
        obtain ⟨_, hbehind, htail⟩ := normal_cons.1 hrest
        rw [Inline.Normal] at hnode
        refine normal_cons.2 ⟨?_, fun next hnext => ?_, htail⟩
        · rw [Inline.Normal]
          exact List.append_ne_nil_of_left_ne_nil hnode b
        · have hapart := hbehind next hnext
          cases next <;> exact hapart
      · exact hrest
      · exact hmerges.elim

end Source

/-- Normal form is left as it is. -/
theorem Normal.normalize_eq (h : Normal nodes) : normalize nodes = nodes := by
  induction nodes with
  | nil => rfl
  | cons node more ih =>
    obtain ⟨_, hnext, hmore⟩ := normal_cons.1 h
    have hsame := ih hmore
    rw [← hsame] at hnext
    rw [normalize_cons hnext, hsame]

namespace Source

theorem IsAtom.normal (h : IsAtom node) : node.Normal := by
  cases h with
  | text hne =>
    rw [Inline.Normal]
    exact hne
  | address url =>
    rw [addressLink, Inline.Normal]
    by_cases hurl : url = []
    · left
      rw [hurl, addressLink]
    · right
      apply normal_singleton
      rw [Inline.Normal]
      exact hurl
  | _ =>
    rw [Inline.Normal]
    trivial

/-- What is put around content in normal form keeps it so. -/
theorem Wrap.apply_normal (wrap : Wrap) (h : Normal nodes) :
    ∀ node ∈ wrap.apply nodes, node.Normal := by
  cases wrap with
  | splice => exact h.forall_mem
  | styled style =>
    rw [apply, List.forall_mem_singleton, Inline.Normal]
    exact h
  | link url =>
    rw [apply, List.forall_mem_singleton, Inline.Normal]
    exact .inr h

theorem fragments_normal (s : Text) : ∀ node ∈ fragments s, node.Normal := by
  fun_induction fragments s with
  | case1 s h => exact List.forall_mem_nil _
  | case2 s content rest h ih =>
    have hatoms : ∀ node ∈ content, IsAtom node := Token.next?_atomic h
    rw [List.forall_mem_append]
    exact ⟨fun node hnode => (hatoms node hnode).normal, ih⟩
  | case3 s wrap argument rest h ihargument ih =>
    rw [List.forall_mem_append]
    exact ⟨wrap.apply_normal (normalize_normal ihargument), ih⟩

/-- A group in braces is read as its content. -/
theorem fragments_group {t : Text} (h : BraceBalanced t) :
    fragments ('{' :: (t ++ ['}'])) = readInlines t := by
  have hnext : Token.next? ('{' :: (t ++ ['}'])) = some (.nested .splice t, []) := by
    have hblank : ¬Char.isBlank '{' := by decide
    have hbraced := h.passesBraces.braced? []
    apply next?_of_special?
    unfold Token.special?
    simp [hblank, hbraced]
  rw [fragments_nested hnext, fragments_nil, List.append_nil]
  rfl

/-- What is read has normal form, and braces around all of a balanced text change nothing. -/
theorem readInlines_normal (t : Text) : Normal (readInlines t) ∧
    (BraceBalanced t → readInlines ('{' :: (t ++ ['}'])) = readInlines t) := by
  have hnormal : Normal (readInlines t) := normalize_normal (fragments_normal t)
  refine ⟨hnormal, fun hbalanced => ?_⟩
  conv_lhs => rw [readInlines, fragments_group hbalanced]
  exact hnormal.normalize_eq

/-- Dashes, spaces and empty addresses next to one another, in groups and without them. -/
theorem readInlines_normal_groups :
    let t : Text := "a\x7b--\x7bb\x7d \\ \x7d \\,\\url\x7b\x7d\\emph\x7b\x7b~\x7d\\%\x7d"
    BraceBalanced t ∧ Normal (readInlines t) ∧
      readInlines ('{' :: (t ++ ['}'])) = readInlines t := by
  intro t
  have hbalanced : BraceBalanced t := by decide +kernel
  obtain ⟨hnormal, hgroup⟩ := readInlines_normal t
  exact ⟨hbalanced, hnormal, hgroup hbalanced⟩

end Source

end TexCatalog
