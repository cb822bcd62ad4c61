import TexCatalog.Proofs.SpelledLists

/-!
# Blocks from their spelling

The blocks that are read from the canonical spelling of blocks are these blocks: a paragraph ends
where the next block begins, a heading takes no label that is not its own, and each item of a list
is read from what it was spelled as.
-/

namespace TexCatalog

namespace Source

open Text

/-- What stands between a block and the end of the blocks behind it. -/
def spellMore (more : List Block) : Text :=
  if more.isEmpty then [] else '\n' :: '\n' :: spellBlocks more

theorem spellBlocks_cons (block : Block) (more : List Block) :
    spellBlocks (block :: more) = spellBlock block ++ spellMore more := by
  cases more with
  | nil => simp [spellBlocks, spellMore]
  | cons next rest => simp [spellBlocks, spellMore]

/-! ### Blocks in a list -/

theorem sectionCommand_mem {level : UInt8} (h : level ∈ [(1 : UInt8), 2, 3]) :
    sectionCommand level ∈ itemCommands := by
  revert level
  decide +kernel

theorem passes_header {content : List Inline} {level : UInt8} {id : Text}
    {p : Place} (hcontent : CanonicalInlines p content) (hp : p.listed)
    (hlevel : level ∈ [(1 : UInt8), 2, 3]) (hid : Markless id) (r : Text) :
    Passes (spellBlock (.header level (.ofId id) content)) r := by
  have hlabel : Silent (if id = [] then [] else spellCommand "label" id) r := by
    split
    · trivial
    · exact silent_command (by simp [itemCommands]) (silent_of_markless hid (by simp) r)
  rw [spellBlock]
  refine .append (.of_silent (silent_command (sectionCommand_mem hlevel) ?_)) (.of_silent hlabel)
  exact hcontent.silent hp (by rintro _ ⟨rfl⟩; decide)

theorem passes_list {items : List (List Block)} {name : Text} (hname : name ∈ listNames)
    (hitems : ∀ item ∈ items, ∀ s, Passes (spellBlocks item) ('\n' :: s)) (r : Text) :
    Passes (enclose name ('\n' :: spellItems items)) r :=
  .enclose hname (passesEnds_body hitems _)

theorem passes_more {block : Block} {more : List Block}
    (hblock : ∀ s, Passes (spellBlock block) ('\n' :: s))
    (hmore : ∀ s, Passes (spellBlocks more) ('\n' :: s)) (s : Text) :
    Passes (spellBlocks (block :: more)) ('\n' :: s) := by
  rw [spellBlocks_cons]
  cases more with
  | nil => exact .append (hblock s) (.of_not_mem (by simp [spellMore]))
  | cons next rest =>
    have hgap : Passes ['\n', '\n'] (spellBlocks (next :: rest) ++ '\n' :: s) :=
      .of_not_mem (by simp)
    exact .append (hblock _) (hgap.append (hmore s))

/-- What stands in an item is passed when the list around it is read. -/
theorem CanonicalBlocks.passes {listed : Bool} {blocks : List Block}
    (h : CanonicalBlocks listed blocks) (hlisted : listed) (s : Text) :
    Passes (spellBlocks blocks) ('\n' :: s) := by
  induction h generalizing s with
  | nil => exact .of_not_mem (by simp [spellBlocks])
  | para _ _ _ hcontent _ ih =>
    refine passes_more (fun s => ?_) (ih hlisted) s
    rw [spellBlock]
    exact .of_silent (hcontent.silent hlisted (by rintro _ ⟨rfl⟩; decide))
  | header hlevel _ _ hid hcontent _ ih =>
    refine passes_more (fun s => ?_) (ih hlisted) s
    exact passes_header hcontent hlisted hlevel (hid hlisted) _
  | bullets _ _ _ ihitems ih =>
    refine passes_more (fun s => ?_) (ih hlisted) s
    rw [spellBlock]
    exact passes_list (by simp [listNames]) (fun item hitem => ihitems item hitem rfl) _
  | numbered _ _ _ ihitems ih =>
    refine passes_more (fun s => ?_) (ih hlisted) s
    rw [spellBlock]
    exact passes_list (by simp [listNames]) (fun item hitem => ihitems item hitem rfl) _

/-! ### Reading the blocks -/

theorem isPrefixOf?_label_list {name : Text} (s : Text) :
    ("\\label" : Text).isPrefixOf? (opener name ++ s) = none := by
  rw [isPrefixOf?_eq_none]
  simp [opener]

theorem isPrefixOf?_label_header {level : UInt8} (hlevel : level ∈ [(1 : UInt8), 2, 3])
    (argument s : Text) : ("\\label" : Text).isPrefixOf?
      (spellCommand (sectionCommand level) argument ++ s) = none := by
  have hspelled : spellCommand (sectionCommand level) argument ++ s =
      ('\\' :: sectionCommand level) ++ '{' :: (argument ++ '}' :: s) := by
    simp [spellCommand]
  rw [hspelled, isPrefixOf?_append_cons (by simp),
    (sectionCommand_spec hlevel).2.2.2 _ (by simp)]
  rfl

/-- The spelling of a block begins with something that is no blank, and not with a label. -/
theorem CanonicalBlocks.starts {listed : Bool} {block : Block} {more : List Block}
    (h : CanonicalBlocks listed (block :: more)) :
    (∃ c s, spellBlock block = c :: s ∧ ¬c.isBlank) ∧
      ∀ r, ("\\label" : Text).isPrefixOf? (spellBlock block ++ r) = none := by
  cases h with
  | para hne hfirst _ hcontent _ =>
    rw [spellBlock]
    have hopens := hcontent.opens_of_ne_nil hne hfirst
    obtain ⟨c, s, hspell, hblank, _⟩ := (hopens []).exists_cons
    rw [List.append_nil] at hspell
    exact ⟨⟨c, s, hspell, hblank⟩, fun r => (hopens r).isPrefixOf?_eq_none (by simp)⟩
  | header hlevel =>
    rw [spellBlock]
    refine ⟨⟨'\\', _, rfl, by decide⟩, fun r => ?_⟩
    rw [List.append_assoc]
    exact isPrefixOf?_label_header hlevel _ _
  | bullets | numbered =>
    rw [spellBlock]
    refine ⟨⟨'\\', _, by simp [enclose, opener]; rfl, by decide⟩, fun r => ?_⟩
    rw [enclose, List.append_assoc, List.append_assoc]
    exact isPrefixOf?_label_list _

/-- What can stand behind blocks: it ends a paragraph, and it is no label. -/
structure Follows (r : Text) : Prop where
  ends : EndsBefore r
  unlabelled : ("\\label" : Text).isPrefixOf? (dropLayout r) = none

theorem Follows.nil : Follows [] := ⟨.inl rfl, by decide_cbv⟩

theorem Follows.newline : Follows ['\n'] := ⟨.inr ⟨[], rfl, by decide_cbv⟩, by decide_cbv⟩

section

variable {listed : Bool} {block : Block} {blocks more : List Block} {r : Text}

/-- Blocks can stand behind blocks. -/
theorem CanonicalBlocks.follows (h : CanonicalBlocks listed more) (hr : Follows r) :
    Follows (spellMore more ++ r) := by
  cases more with
  | nil => exact hr
  | cons next rest =>
    have hline : endsParagraph (firstLine ('\n' :: (spellBlocks (next :: rest) ++ r))) := by
      rw [firstLine_newline]
      rfl
    refine ⟨.inr ⟨_, rfl, hline⟩, ?_⟩
    obtain ⟨⟨c, s, hspell, hblank⟩, hlabel⟩ := h.starts
    have hlayout : ¬c.isLayout := fun h => hblank (isBlank_of_isLayout h)
    have hdrop : dropLayout (spellMore (next :: rest) ++ r) =
        spellBlock next ++ (spellMore rest ++ r) := by
      have hmore : spellMore (next :: rest) ++ r =
          ['\n', '\n'] ++ (spellBlock next ++ (spellMore rest ++ r)) := by
        simp [spellMore, spellBlocks_cons]
      rw [hmore, hspell, dropLayout, List.dropWhile_append_of_pos (by simp [Char.isLayout])]
      exact List.dropWhile_cons_of_neg hlayout
    rw [hdrop, hlabel]

theorem readBlocks_more (r : Text) :
    readBlocks (spellMore more ++ r) = readBlocks (spellBlocks more ++ r) := by
  cases more with
  | nil => rw [spellBlocks]; rfl
  | cons next rest =>
    have hspelled : spellMore (next :: rest) ++ r =
        '\n' :: '\n' :: (spellBlocks (next :: rest) ++ r) := rfl
    rw [hspelled, readBlocks_newline, readBlocks_newline]

theorem readBlocks_drop (h : EndsBefore r) : readBlocks (r.drop 1) = readBlocks r := by
  rcases h with rfl | ⟨s, rfl, _⟩
  · rfl
  · exact (readBlocks_newline s).symm

end

theorem closeBracket_newline {t : Text} {depth braces : Nat}
    (h : closeBracket depth braces t = none) : closeBracket depth braces (t ++ ['\n']) = none := by
  fun_induction closeBracket depth braces t with
  | case1 | case2 => simp [closeBracket]
  | case9 _ _ _ _ hback hopen hclose hleft hright ih =>
    rw [List.cons_append, closeBracket.eq_def]
    simp only [if_neg hback, if_neg hopen, if_neg hclose, if_neg hleft, if_neg hright,
      ih (Option.map_eq_none_iff.1 h), Option.map_none]
  | _ =>
    rw [List.cons_append, closeBracket.eq_def]
    simp_all

theorem bracketed?_newline {t : Text} (h : bracketed? t = none) :
    bracketed? (t ++ ['\n']) = none := by
  cases t with
  | nil => decide
  | cons c t =>
    rw [bracketed?] at h
    rw [List.cons_append, bracketed?]
    split at h
    · next hc => rw [if_pos hc, closeBracket_newline h]
    · next hc => rw [if_neg hc]

/-- The text of an item is what the item was spelled from. -/
theorem readBlocks_itemText {item : List Block} {listed : Bool} (h : CanonicalBlocks listed item)
    (hlabel : bracketed? (spellBlocks item) = none)
    (hread : readBlocks (spellBlocks item ++ ['\n']) = item) :
    readBlocks (itemText (spellItem item)) = item := by
  have hdrop : (spellItem item).drop 5 = ' ' :: (spellBlocks item ++ ['\n']) := by
    simp [spellItem]
  have hspace : Char.isBlank ' ' := by decide
  have hstart : trimStart ((spellItem item).drop 5) = trimStart (spellBlocks item ++ ['\n']) := by
    rw [hdrop]
    exact List.dropWhile_cons_of_pos hspace
  cases item with
  | nil =>
    have htext : itemText (spellItem []) = [] := by decide_cbv
    rw [htext, readBlocks_nil]
  | cons block more =>
    obtain ⟨⟨c, s, hspell, hblank⟩, _⟩ := h.starts
    have hkeep : trimStart (spellBlocks (block :: more) ++ ['\n']) =
        spellBlocks (block :: more) ++ ['\n'] := by
      rw [spellBlocks_cons, hspell]
      exact List.dropWhile_cons_of_neg hblank
    unfold itemText
    dsimp only
    rw [hstart, hkeep, bracketed?_newline hlabel]
    exact hread

theorem readBlocks_enclose {name body r : Text} (hname : name ∈ listNames)
    (h : environment? (enclose name body ++ r) = some (⟨name, body, enclose name body⟩, r)) :
    readBlocks (enclose name body ++ r) =
      (if name = ("itemize" : Text) then .bullets ((Source.items body).map readBlocks)
        else .numbered sourceNumbering ((Source.items body).map readBlocks)) :: readBlocks r := by
  have hfirst : Piece.first (enclose name body ++ r) =
      (.environment ⟨name, body, enclose name body⟩, r) := by
    rw [Piece.first, h]
  have hkinds : name = ("itemize" : Text) ∨ name = ("enumerate" : Text) := by
    simpa [listNames] using hname
  obtain ⟨more, hmore⟩ : ∃ more, enclose name body = '\\' :: more := by
    obtain ⟨more, hmore, _⟩ := opener_isMark (listNames_spec hname).2
    exact ⟨_, by rw [enclose, hmore, List.cons_append, List.cons_append]⟩
  rw [hmore, List.cons_append] at hfirst ⊢
  rw [readBlocks_cons (by decide) (by decide), hfirst]
  dsimp only
  split
  · rfl
  · next hne => rw [if_pos (hkinds.resolve_left hne)]

theorem readBlocks_list {items : List (List Block)} {name : Text} (hname : name ∈ listNames)
    (hitems : ∀ item ∈ items, CanonicalBlocks true item)
    (hlabels : ∀ item ∈ items, bracketed? (spellBlocks item) = none)
    (hread : ∀ item ∈ items, readBlocks (spellBlocks item ++ ['\n']) = item) (r : Text) :
    readBlocks (enclose name ('\n' :: spellItems items) ++ r) =
      (if name = ("itemize" : Text) then .bullets items
        else .numbered sourceNumbering items) :: readBlocks r := by
  have hpass : ∀ item ∈ items, ∀ s, Passes (spellBlocks item) ('\n' :: s) :=
    fun item hitem => (hitems item hitem).passes rfl
  have henvironment := environment?_list hname (passesEnds_body hpass (closer name ++ r))
  have hbody : (Source.items ('\n' :: spellItems items)).map readBlocks = items := by
    rw [items_spelled hpass, List.map_map]
    refine (List.map_congr_left fun item hitem => ?_).trans (List.map_id items)
    exact readBlocks_itemText (hitems item hitem) (hlabels item hitem) (hread item hitem)
  have hread := readBlocks_enclose hname henvironment
  rw [hbody] at hread
  exact hread

/-- Canonical blocks are read from their spelling, and then what follows. -/
theorem CanonicalBlocks.read {listed : Bool} {blocks : List Block}
    (h : CanonicalBlocks listed blocks) {r : Text} (hr : Follows r) :
    readBlocks (spellBlocks blocks ++ r) = blocks ++ readBlocks r := by
  have hitems {items : List (List Block)} (ih : ∀ item ∈ items, ∀ {r : Text}, Follows r →
      readBlocks (spellBlocks item ++ r) = item ++ readBlocks r) :
      ∀ item ∈ items, readBlocks (spellBlocks item ++ ['\n']) = item := by
    intro item hitem
    rw [ih item hitem .newline, readBlocks_newline, readBlocks_nil, List.append_nil]
  induction h generalizing r with
  | nil => rw [spellBlocks, List.nil_append, List.nil_append]
  | para hne hfirst hlast hcontent hmore ih =>
    have hend := (hmore.follows hr).ends
    rw [spellBlocks_cons, List.append_assoc, spellBlock,
      readBlocks_para hcontent rfl hne hfirst hlast hend, readBlocks_drop hend, readBlocks_more,
      ih hr, List.cons_append]
  | header hlevel htrim hid _ hcontent hmore ih =>
    rw [spellBlocks_cons, List.append_assoc,
      readBlocks_header hcontent rfl hlevel htrim hid (hmore.follows hr).unlabelled,
      readBlocks_more, ih hr, List.cons_append]
  | bullets hcanonical hlabels _ ihitems ih =>
    rw [spellBlocks_cons, List.append_assoc, spellBlock,
      readBlocks_list (by simp [listNames]) hcanonical hlabels (hitems ihitems), readBlocks_more,
      ih hr, if_pos rfl, List.cons_append]
  | numbered hcanonical hlabels _ ihitems ih =>
    rw [spellBlocks_cons, List.append_assoc, spellBlock,
      readBlocks_list (by simp [listNames]) hcanonical hlabels (hitems ihitems), readBlocks_more,
      ih hr, if_neg (by simp), List.cons_append]

/-- Reading undoes the canonical spelling. -/
theorem readBlocks_spellBlocks {blocks : List Block} (h : CanonicalBlocks false blocks) :
    readBlocks (spellBlocks blocks) = blocks := by
  have hread := h.read .nil
  rwa [List.append_nil, readBlocks_nil, List.append_nil] at hread

def nestedList : List Block :=
  [.header 1 (.ofId "top") [.text "A"],
    .para [.styled .strong [.text "b", .space, .math .inline "x^2"], .softBreak,
      .link .empty [.text "c"] ⟨"https://e.org/%7E", []⟩],
    .bullets [[.para [.code .empty "e%", .lineBreak, .styled .smallCaps []],
      .numbered sourceNumbering [[.para [.text "[f"]], []]]]]

theorem readBlocks_spellBlocks_nestedList :
    CanonicalBlocks false nestedList ∧ readBlocks (spellBlocks nestedList) = nestedList := by
  have hmeets {p : Place} {node : Inline} : p.Meets node [] := by simp [Place.Meets]
  have hword {p : Place} {t : Text} (h : IsWord t) : CanonicalInlines p [.text t] :=
    .leaf (.word h) hmeets .nil
  have hstrong : CanonicalInlines ⟨true, true, false⟩ [.text "b", .space, .math .inline "x^2"] := by
    have hmath : Place.Leaf ⟨true, true, false⟩ (.math .inline "x^2") := by
      refine .math (by decide +kernel) (by decide +kernel) (fun _ => ?_) ⟨fun _ => ?_, by simp⟩
      · decide +kernel
      · decide +kernel
    have hb : IsWord "b" := by decide +kernel
    refine .leaf (.word hb) (by simp [Place.Meets, Place.MayMeet]) ?_
    exact .leaf .space (by simp [Place.Meets, Place.MayMeet]) (.leaf hmath hmeets .nil)
  have hparagraph : CanonicalInlines ⟨false, true, false⟩
      [.styled .strong [.text "b", .space, .math .inline "x^2"], .softBreak,
        .link .empty [.text "c"] ⟨"https://e.org/%7E", []⟩] := by
    refine .styled _ hstrong (by simp [Place.Meets, Place.MayMeet]) ?_
    refine .leaf .softBreak (by simp [Place.Meets, Place.MayMeet]) (.link ?_ ?_ ?_ hmeets .nil)
    · decide +kernel
    · exact ⟨fun _ => by decide +kernel, by simp⟩
    · exact hword (by decide +kernel)
  have hitem : CanonicalInlines ⟨false, true, true⟩
      [.code .empty "e%", .lineBreak, .styled .smallCaps []] := by
    refine .leaf (.code ?_ ⟨fun _ => ?_, fun _ => ?_⟩) (by simp [Place.Meets, Place.MayMeet]) ?_
    · decide +kernel
    · decide +kernel
    · unfold Markless
      decide +kernel
    · exact .leaf .lineBreak (by simp [Place.Meets, Place.MayMeet]) (.styled _ .nil hmeets .nil)
  have hnumbered : CanonicalBlocks true [.numbered sourceNumbering [[.para [.text "[f"]], []]] := by
    refine .numbered ?_ ?_ .nil
    · rw [List.forall_mem_cons, List.forall_mem_singleton]
      refine ⟨.para (by simp) (by simp [IsGap]) (by simp [IsGap]) (hword ?_) .nil, .nil⟩
      decide +kernel
    · rw [List.forall_mem_cons, List.forall_mem_singleton]
      decide +kernel
  have hcanonical : CanonicalBlocks false nestedList := by
    refine .header (by simp) (by decide +kernel) (by decide +kernel) (by simp)
      (hword (by decide +kernel))
      (.para (by simp) (by simp [IsGap]) (by simp [IsGap]) hparagraph (.bullets ?_ ?_ .nil))
    · rw [List.forall_mem_singleton]
      exact .para (by simp) (by simp [IsGap]) (by simp [IsGap]) hitem hnumbered
    · rw [List.forall_mem_singleton]
      rfl
  exact ⟨hcanonical, readBlocks_spellBlocks hcanonical⟩

/-! ### Blocks that are not read from their spelling -/

/-- A paragraph that is read from all of a text begins with the first node of that text. -/
theorem readBlocks_first {t rest : Text} {node : Inline} (hopens : Opens t)
    (htaken : takeParagraph t = (t, [])) (htrim : trim t = t)
    (hnext : Token.next? t = some (.nodes [node], rest))
    (hnode : ∀ more, normalize (node :: more) = node :: normalize more) :
    ∃ more, readBlocks t = [.para (node :: more)] := by
  refine ⟨normalize (fragments rest), ?_⟩
  rw [readBlocks_paragraph hopens, htaken, readParagraph_opens hopens htrim, readBlocks_nil,
    readInlines, fragments_nodes hnext, List.singleton_append, hnode]

theorem readBlocks_itemize {body : Text} (h : environment? (enclose "itemize" body) =
    some (⟨"itemize", body, enclose "itemize" body⟩, [])) :
    readBlocks (enclose "itemize" body) = [.bullets ((Source.items body).map readBlocks)] := by
  have hname : ("itemize" : Text) ∈ listNames := by simp [listNames]
  have hread := readBlocks_enclose (r := []) hname (by rwa [List.append_nil])
  rwa [List.append_nil, readBlocks_nil, if_pos rfl] at hread

/-- Math and code that end too early, a blank line in code, a blank in front of a paragraph, code
with a class, a label with a blank, and in a list code with `\item` and a word in brackets. -/
theorem readBlocks_spellBlocks_ne :
    readBlocks (spellBlocks [.para [.math .inline "a$b"]]) ≠ [.para [.math .inline "a$b"]] ∧
      readBlocks (spellBlocks [.para [.code .empty "\x7d"]]) ≠ [.para [.code .empty "\x7d"]] ∧
      readBlocks (spellBlocks [.para [.code .empty "a\n\nb"]]) ≠
        [.para [.code .empty "a\n\nb"]] ∧
      readBlocks (spellBlocks [.para [.space, .text "a"]]) ≠ [.para [.space, .text "a"]] ∧
      readBlocks (spellBlocks [.para [.code (.ofClasses ["a"]) "b"]]) ≠
        [.para [.code (.ofClasses ["a"]) "b"]] ∧
      readBlocks (spellBlocks [.header 1 (.ofId " b") [.text "a"]]) ≠
        [.header 1 (.ofId " b") [.text "a"]] ∧
      readBlocks (spellBlocks [.bullets [[.para [.code .empty "\\item"]]]]) ≠
        [.bullets [[.para [.code .empty "\\item"]]]] ∧
      readBlocks (spellBlocks [.bullets [[.para [.text "[a]"]]]]) ≠
        [.bullets [[.para [.text "[a]"]]]] := by
  have hcode {x r : Text} (hx : PassesBraces x)
      (htaken : takeParagraph (spellCommand "texttt" x ++ r) = (spellCommand "texttt" x ++ r, []))
      (htrim : trim (spellCommand "texttt" x ++ r) = spellCommand "texttt" x ++ r) :
      ∃ more, readBlocks (spellCommand "texttt" x ++ r) = [.para (.code .empty x :: more)] := by
    refine readBlocks_first ?_ htaken htrim (next?_code hx r) (fun _ => rfl)
    rw [spellCommand, List.cons_append, List.append_assoc]
    exact .command _ (by simp [inlineCommands])
  refine ⟨?_, ?_, ?_, ?_, ?_, ?_, ?_, ?_⟩
  · have hspelled : spellBlocks [.para [.math .inline "a$b"]] =
        '$' :: (['a'] ++ '$' :: ['b', '$']) := by
      decide +kernel
    obtain ⟨more, hread⟩ : ∃ more, readBlocks ('$' :: (['a'] ++ '$' :: ['b', '$'])) =
        [.para (.math .inline ['a'] :: more)] :=
      readBlocks_first (.char _ (by decide) (by simp)) (by rfl) (by rfl)
        (next?_math (by simp) (by rfl) _) (fun _ => rfl)
    rw [hspelled, hread]
    simp
  · have hspelled : spellBlocks [.para [.code .empty "\x7d"]] =
        spellCommand "texttt" [] ++ ['}'] := by
      decide +kernel
    obtain ⟨more, hread⟩ := hcode (r := ['}']) .nil (by decide +kernel) (by decide +kernel)
    rw [hspelled, hread]
    simp
  · have hopens : Opens (spellCommand "texttt" "a\n\nb") := .command _ (by simp [inlineCommands])
    have htaken : (takeParagraph (spellCommand "texttt" "a\n\nb")).2 = ['\n', 'b', '}'] := by
      decide +kernel
    have hnext : Opens ['b', '}'] := .char _ (by decide) (by simp)
    rw [spellBlocks, spellBlock, spellInlines, spellInline, spellInlines, List.append_nil,
      readBlocks_paragraph hopens, htaken, readBlocks_newline, readBlocks_paragraph hnext]
    simp
  · have hword : CanonicalBlocks false [.para [.text "a"]] := by
      refine .para (by simp) (by simp [IsGap]) (by simp [IsGap]) (.leaf (.word ?_) ?_ .nil) .nil
      · exact by decide +kernel
      · simp [Place.Meets]
    have hspelled : spellBlocks [.para [.space, .text "a"]] =
        [' '] ++ (spellBlocks [.para [.text "a"]] ++ []) := by
      decide +kernel
    rw [hspelled, readBlocks_blanks (by simp [Char.isBlank]), hword.read .nil, readBlocks_nil]
    simp
  · have hspelled : spellBlocks [.para [.code (.ofClasses ["a"]) "b"]] =
        spellCommand "texttt" "b" ++ [] := by
      rfl
    have hclosed : Closed "b" := by
      decide +kernel
    obtain ⟨more, hread⟩ := hcode (r := []) hclosed.passesBraces (by decide +kernel)
      (by decide +kernel)
    rw [hspelled, hread]
    simp [Attr.empty, Attr.ofClasses]
  · have hspelled : spellBlocks [.header 1 (.ofId " b") [.text "a"]] =
        '\\' :: "section\x7ba\x7d\\label\x7b b\x7d" := by
      decide +kernel
    have henvironment : environment? ('\\' :: "section\x7ba\x7d\\label\x7b b\x7d") = none := by
      decide +kernel
    have hread : (heading? ('\\' :: "section\x7ba\x7d\\label\x7b b\x7d")).map
        (fun p => (p.1.label, p.2)) = some (("b" : Text), []) := by
      decide +kernel
    obtain ⟨⟨⟨level, label, title⟩, rest⟩, hheading, hparts⟩ := Option.map_eq_some_iff.1 hread
    obtain ⟨rfl, rfl⟩ := Prod.mk.inj hparts
    rw [hspelled, readBlocks_cons (by decide) (by decide), Piece.first, henvironment, hheading]
    simp [Attr.ofId]
  · intro h
    rw [spellBlocks, spellBlock, readBlocks_itemize (by decide +kernel)] at h
    have hlength := congrArg List.length (Block.bullets.inj (List.head_eq_of_cons_eq h))
    rw [List.length_map] at hlength
    exact absurd hlength (by decide +kernel)
  · have hitems : Source.items ('\n' :: spellItems [[.para [.text "[a]"]]]) = [['\n']] := by
      decide +kernel
    rw [spellBlocks, spellBlock, readBlocks_itemize (by decide +kernel), hitems, List.map_singleton,
      readBlocks_newline, readBlocks_nil]
    simp

end Source

end TexCatalog
