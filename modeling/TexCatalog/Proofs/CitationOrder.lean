import Mathlib.Data.List.Basic
import TexCatalog.Proofs.PageMarkup
import TexCatalog.Proofs.TreeNodes

/-!
# The order of references

The keys of a page stand in the order in which its tree first cites them; the keys that only its
record knows follow in ascending order.
-/

namespace TexCatalog

def TreeNode.citedKey? : TreeNode → Option Text
  | .inline (.link attr _ _) => attr.get? "data-cite"
  | _ => none

mutual

theorem Inline.citations_eq : ∀ node : Inline,
    node.citations = (TreeNode.inline node :: node.inner).filterMap TreeNode.citedKey?
  | .link attr content _ => by
    rw [Inline.citations, Inline.inner, inlineCitations_eq content, citedKey, List.filterMap_cons,
      TreeNode.citedKey?]
    cases attr.get? "data-cite" <;> rfl
  | .styled _ content | .quoted _ content | .image _ content _ | .span _ content
  | .crossRef _ content _ => by
    rw [Inline.citations, Inline.inner, inlineCitations_eq content]
    rfl
  | .note content => by
    rw [Inline.citations, Inline.inner, blockCitations_eq content]
    rfl
  | .text _ | .code .. | .space | .softBreak | .lineBreak | .math .. | .raw .. => by
    rw [Inline.citations, Inline.inner]
    rfl

theorem inlineCitations_eq : ∀ nodes : List Inline,
    inlineCitations nodes = (inlineNodes nodes).filterMap TreeNode.citedKey?
  | [] => by rw [inlineCitations, inlineNodes, List.filterMap_nil]
  | node :: more => by
    rw [inlineCitations, inlineNodes, List.filterMap_append, Inline.citations_eq node,
      inlineCitations_eq more]

theorem Block.citations_eq : ∀ block : Block,
    block.citations = (TreeNode.block block :: block.inner).filterMap TreeNode.citedKey?
  | .plain content | .para content | .header _ _ content => by
    rw [Block.citations, Block.inner, inlineCitations_eq content]
    rfl
  | .quote content | .div _ content => by
    rw [Block.citations, Block.inner, blockCitations_eq content]
    rfl
  | .bullets items | .numbered _ items => by
    rw [Block.citations, Block.inner, itemCitations_eq items]
    rfl
  | .code .. | .raw .. | .rule => by
    rw [Block.citations, Block.inner]
    rfl

/-- Citations are collected from the links of a tree in the order of its nodes. -/
theorem blockCitations_eq : ∀ blocks : List Block,
    blockCitations blocks = (blockNodes blocks).filterMap TreeNode.citedKey?
  | [] => by rw [blockCitations, blockNodes, List.filterMap_nil]
  | block :: more => by
    rw [blockCitations, blockNodes, List.filterMap_append, Block.citations_eq block,
      blockCitations_eq more]

theorem itemCitations_eq : ∀ items : List (List Block),
    itemCitations items = (itemNodes items).filterMap TreeNode.citedKey?
  | [] => by rw [itemCitations, itemNodes, List.filterMap_nil]
  | item :: more => by
    rw [itemCitations, itemNodes, List.filterMap_append, blockCitations_eq item,
      itemCitations_eq more]

end

/-- The place of a key among references: in front of the keys that are cited later, or not at all;
of two keys that are not cited the smaller one comes first. -/
def Precedes (cited : List Text) (k l : Text) : Prop :=
  cited.idxOf k < cited.idxOf l ∨ k ∉ cited ∧ l ∉ cited ∧ k < l

section

variable {k l : Text}

/-- Dropping the other occurrences of a key does not exchange two keys. -/
theorem idxOf_lt_of_filter {t : Text} {keys : List Text} (hk : k ≠ t) (hl : l ≠ t)
    (h : (keys.filter fun u => !u == t).idxOf k < (keys.filter fun u => !u == t).idxOf l) :
    keys.idxOf k < keys.idxOf l := by
  induction keys with
  | nil => simp at h
  | cons u more ih =>
    by_cases hu : u = t
    · subst hu
      rw [List.filter_cons_of_neg (by simp)] at h
      have hmore := ih h
      rw [List.idxOf_cons_ne _ hk.symm, List.idxOf_cons_ne _ hl.symm]
      omega
    · rw [List.filter_cons_of_pos (by simpa using hu)] at h
      by_cases huk : u = k
      · subst huk
        by_cases hul : u = l
        · subst hul
          exact absurd h (Nat.lt_irrefl _)
        · rw [List.idxOf_cons_self, List.idxOf_cons_ne _ hul]
          exact Nat.succ_pos _
      · by_cases hul : u = l
        · subst hul
          rw [List.idxOf_cons_self] at h
          exact absurd h (Nat.not_lt_zero _)
        · rw [List.idxOf_cons_ne _ huk, List.idxOf_cons_ne _ hul] at h ⊢
          exact Nat.succ_lt_succ (ih (Nat.lt_of_succ_lt_succ h))

/-- Without repetitions keys stand in the order of their first occurrences. -/
theorem pairwise_eraseDups (keys : List Text) :
    keys.eraseDups.Pairwise fun k l => keys.idxOf k < keys.idxOf l := by
  induction hn : keys.length using Nat.strongRecOn generalizing keys with
  | ind n ih =>
    cases keys with
    | nil => exact .nil
    | cons t more =>
      have hshorter : (more.filter fun u => !u == t).length < n := by
        have hle := List.length_filter_le (fun u => !u == t) more
        rw [List.length_cons] at hn
        omega
      have hmem {k : Text} (hk : k ∈ (more.filter fun u => !u == t).eraseDups) : k ≠ t := by
        rw [List.mem_eraseDups, List.mem_filter] at hk
        simpa using hk.2
      rw [List.eraseDups_cons, List.pairwise_cons]
      constructor
      · intro k hk
        rw [List.idxOf_cons_self, List.idxOf_cons_ne _ (hmem hk).symm]
        exact Nat.succ_pos _
      · refine (ih _ hshorter _ rfl).imp_of_mem fun hk hl hkl => ?_
        rw [List.idxOf_cons_ne _ (hmem hk).symm, List.idxOf_cons_ne _ (hmem hl).symm]
        exact Nat.succ_lt_succ (idxOf_lt_of_filter (hmem hk) (hmem hl) hkl)

theorem lt_of_idxOf_lt {keys : List Text} (hkeys : keys.Pairwise (· < ·)) (hk : k ∈ keys)
    (h : keys.idxOf k < keys.idxOf l) (hl : l ∈ keys) : k < l := by
  have hlt := List.pairwise_iff_getElem.1 hkeys _ _ (List.idxOf_lt_length_of_mem hk)
    (List.idxOf_lt_length_of_mem hl) h
  rwa [List.getElem_idxOf, List.getElem_idxOf] at hlt

end

section

variable (blocks : List Block) (recorded : TextSet)

theorem citationOrder_nodup : (citationOrder blocks recorded).Nodup := by
  refine (pairwise_eraseDups _).imp fun {k l} h => ?_
  rintro rfl
  exact Nat.lt_irrefl _ h

/-- Every cited and every recorded key is in order, and no others. -/
theorem mem_citationOrder {key : Text} : key ∈ citationOrder blocks recorded ↔
    key ∈ (blockNodes blocks).filterMap TreeNode.citedKey? ∨ key ∈ recorded := by
  rw [citationOrder, List.mem_eraseDups, List.mem_append, blockCitations_eq, TextSet.mem_iff]

theorem citationOrder_precedes : (citationOrder blocks recorded).Pairwise
    (Precedes ((blockNodes blocks).filterMap TreeNode.citedKey?)) := by
  unfold citationOrder
  rw [blockCitations_eq]
  generalize (blockNodes blocks).filterMap TreeNode.citedKey? = cited
  refine (pairwise_eraseDups _).imp_of_mem fun {k l} hk hl h => ?_
  rw [List.idxOf_append, List.idxOf_append] at h
  rw [List.mem_eraseDups, List.mem_append] at hk hl
  by_cases hkc : k ∈ cited
  · rw [if_pos hkc] at h
    left
    by_cases hlc : l ∈ cited
    · rwa [if_pos hlc] at h
    · rw [List.idxOf_eq_length hlc]
      exact List.idxOf_lt_length_of_mem hkc
  · rw [if_neg hkc] at h
    by_cases hlc : l ∈ cited
    · rw [if_pos hlc] at h
      have hlength := List.idxOf_lt_length_of_mem hlc
      omega
    · rw [if_neg hlc] at h
      have hlt := lt_of_idxOf_lt recorded.sorted (hk.resolve_left hkc) (by omega)
        (hl.resolve_left hlc)
      exact .inr ⟨hkc, hlc, hlt⟩

end

end TexCatalog
