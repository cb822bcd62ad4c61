import TexCatalog.Page.Layout

/-!
# Rules for layouts

`Layout.Ensures x P` says that the value of `x` satisfies `P` together with the notes that `x`
collects, however many notes there were before. There is one rule for each operation that a layout
is made of.
-/

namespace TexCatalog.Layout

variable {α β : Type}

def Ensures (x : Layout α) (P : α → List (List Html) → Prop) : Prop :=
  ∀ n, P (x n).1 (x n).2.notes

section

variable {x : Layout α} {f : α → Layout β} {P P' : α → List (List Html) → Prop}
  {Q : β → List (List Html) → Prop}

theorem Ensures.mono (hx : x.Ensures P) (h : ∀ a notes, P a notes → P' a notes) :
    x.Ensures P' := fun n => h _ _ (hx n)

theorem ensures_any (x : Layout α) : x.Ensures fun _ _ => True := fun _ => trivial

theorem ensures_pure {a : α} (h : P a []) : Ensures (Pure.pure a) P := fun _ => h

theorem ensures_bind (hx : x.Ensures P)
    (hf : ∀ a notes, P a notes → (f a).Ensures fun b more => Q b (notes ++ more)) :
    (x >>= f).Ensures Q := by
  intro n
  exact hf _ _ (hx n) (n + (x n).2.notes.length)

/-- A step of which the value is put into a form that satisfies another condition. -/
theorem ensures_bind_pure {g : α → β} (hx : x.Ensures P)
    (h : ∀ a notes, P a notes → Q (g a) notes) : (x >>= fun a => Pure.pure (g a)).Ensures Q := by
  refine ensures_bind hx fun a notes ha => ?_
  apply ensures_pure
  rw [List.append_nil]
  exact h a notes ha

theorem ensures_report {d : Diagnostic} {P : Unit → List (List Html) → Prop} (h : P () []) :
    Ensures (report d) P := fun _ => h

/-- A collected note stands behind the notes that it holds. -/
theorem ensures_collect {x : Layout (List Html)} {P : List Html → List (List Html) → Prop}
    (hx : x.Ensures P) :
    (collect x).Ensures fun _ notes => ∃ content inner, P content inner ∧
      notes = inner ++ [content] := fun n => ⟨_, _, hx n, rfl⟩

end

section

variable {ctx : LayoutContext} {block : Block} {more : List Block} {content : List Inline}
  {P P' Q : List Html → List (List Html) → Prop}

/-- The content of a paragraph satisfies what is known of it in the element of the paragraph. -/
theorem ensures_of_para (h : (layoutBlock ctx (.para content)).Ensures P) :
    (layoutInlines ctx content).Ensures fun markup notes =>
      P [.element .p [] markup, Html.newline] notes := by
  intro n
  have hn := h n
  rw [layoutBlock] at hn
  change P [.element .p [] (layoutInlines ctx content n).1, Html.newline]
    ((layoutInlines ctx content n).2.notes ++ []) at hn
  rwa [List.append_nil] at hn

theorem ensures_of_plain (h : (layoutBlock ctx (.plain content)).Ensures P) :
    (layoutInlines ctx content).Ensures fun markup notes => P (markup ++ [Html.newline]) notes := by
  intro n
  have hn := h n
  rw [layoutBlock] at hn
  change P ((layoutInlines ctx content n).1 ++ [Html.newline])
    ((layoutInlines ctx content n).2.notes ++ []) at hn
  rwa [List.append_nil] at hn

/-- The first block of a collapsible division is its summary if it is a paragraph. -/
theorem ensures_layoutDetails (hblock : (layoutBlock ctx block).Ensures P)
    (hmore : (layoutBlocks ctx more).Ensures P')
    (hpara : ∀ summary notes rest later, P [.element .p [] summary, Html.newline] notes →
      P' rest later → Q (.element .summary [] summary :: Html.newline :: rest) (notes ++ later))
    (hother : ∀ markup notes rest later, P markup notes → P' rest later →
      Q (.element .summary [] [] :: Html.newline :: markup ++ rest) (notes ++ later)) :
    (layoutDetails ctx (block :: more)).Ensures Q := by
  unfold layoutDetails
  split
  · next heading tail heq =>
    cases heq
    refine ensures_bind (ensures_of_para hblock) fun summary notes h => ?_
    exact ensures_bind_pure hmore fun rest later hrest => hpara summary notes rest later h hrest
  · next heq =>
    cases heq
    refine ensures_bind hblock fun markup notes h => ?_
    exact ensures_bind_pure hmore fun rest later hrest => hother markup notes rest later h hrest
  · next heq => cases heq

/-- An only paragraph of an item has no element of its own. -/
theorem ensures_layoutItem (hblock : (layoutBlock ctx block).Ensures P)
    (hmore : (layoutBlocks ctx more).Ensures P')
    (hpara : ∀ markup notes, P' [] [] → P [.element .p [] markup, Html.newline] notes →
      Q markup notes)
    (hplain : ∀ markup notes, P' [] [] → P (markup ++ [Html.newline]) notes → Q markup notes)
    (hother : ∀ markup notes rest later, P markup notes → P' rest later →
      Q (markup ++ rest) (notes ++ later)) : (layoutItem ctx (block :: more)).Ensures Q := by
  have halone (hnil : more = []) : P' [] [] := by
    subst hnil
    have hempty := hmore 0
    rwa [layoutBlocks] at hempty
  unfold layoutItem
  split
  · next content heq =>
    cases heq
    exact (ensures_of_para hblock).mono fun markup notes h => hpara markup notes (halone rfl) h
  · next content heq =>
    cases heq
    exact (ensures_of_plain hblock).mono fun markup notes h => hplain markup notes (halone rfl) h
  · next heq =>
    cases heq
    refine ensures_bind hblock fun markup notes h => ?_
    exact ensures_bind_pure hmore fun rest later hrest => hother markup notes rest later h hrest
  · next heq => cases heq

end

end TexCatalog.Layout
