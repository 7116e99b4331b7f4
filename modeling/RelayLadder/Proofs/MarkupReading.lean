/-
  Plain markup, read by the stand-in for the XML library.

  `Reads cs p Q` says that the events of the text `cs` lead the machine that reads documents from
  the state `p` to one with the property `Q`; what a piece of text does is said with any text behind
  it, so that pieces compose.

  * `readsInside_of_sound`: sound markup inside an element gives it the children and the text that
    it should;
  * `read_of_sound`: so a document is read as the element in it;
  * `faithful_xml`: the stand-in is faithful.
-/
import RelayLadder.Proofs.TagReading
import RelayLadder.StandIn.Writer

namespace RelayLadder.StandIn

open Text Xml

/-! ## Start tags without labels -/

/-- What the labels stand for outside all elements. -/
def rootBindings : Bindings := [(some "xml", xmlSpace)]

/-- An element with this start tag, before anything in it was read. -/
def opened (name : String) (attributes : List (String × String)) : OpenElement :=
  { name := .plain name, tag := name, attributes, bindings := rootBindings }

theorem isPlainTag_iff {name : String} {keys : List String} :
    isPlainTag name keys = true ↔
      isPlainName name = true ∧ (∀ key ∈ keys, isPlainName key = true ∧ key ≠ "xmlns") ∧
        keys.Nodup := by
  simp [isPlainTag, and_assoc]

theorem isPlainName_of_isPlainTag {name : String} {attributes : List (String × String)}
    (h : isPlainTag name (attributes.map Prod.fst) = true) :
    ∀ a ∈ attributes, isPlainName a.1 = true := fun a ha =>
  ((isPlainTag_iff.1 h).2.1 a.1 (List.mem_map_of_mem ha)).1

@[simp]
theorem text_plain (name : String) : (QName.plain name).text = name := rfl

@[simp]
theorem sound_plain (name : String) : (QName.plain name).sound = true := rfl

@[simp]
theorem attribute_plain (bs : Bindings) (name : String) : bs.attribute (.plain name) = name := rfl

@[simp]
theorem element_plain (name : String) : Bindings.element rootBindings (.plain name) = name := rfl

theorem ofAttribute?_plain {key : String} (h : key ≠ "xmlns") (value : String) :
    Declaration.ofAttribute? (.plain key) value = none := by
  simp only [Declaration.ofAttribute?, QName.plain]
  split <;> simp_all

theorem attributeNotices_plain {key : String} (hp : isPlainName key = true) (h : key ≠ "xmlns")
    (value : String) : attributeNotices (.plain key, value) = [] := by
  have hspace : key ≠ "xml:space" := ne_of_test hp (by decide)
  simp [attributeNotices, blankNotices, ofAttribute?_plain h, hspace]

/-- Different names are no repetition. -/
theorem repetitionNotices_plain {keys : List String} (h : keys.Nodup) (seen : List String)
    (hd : ∀ key ∈ keys, key ∉ seen) (bs : Bindings) :
    repetitionNotices bs (seen.map QName.plain) (keys.map QName.plain) = some [] := by
  induction keys generalizing seen with
  | nil => rfl
  | cons key keys ih =>
    obtain ⟨hk, hkeys⟩ := List.nodup_cons.1 h
    obtain ⟨hks, hseen⟩ := List.forall_mem_cons.1 hd
    have hnone : (seen.map QName.plain).find?
        (bs.attribute · == bs.attribute (QName.plain key)) = none := by
      rw [List.find?_eq_none]
      intro q hq
      obtain ⟨k, hm, rfl⟩ := List.mem_map.1 hq
      simp only [attribute_plain, beq_iff_eq]
      rintro rfl
      exact hks hm
    have hnext : ∀ k ∈ keys, k ∉ seen ++ [key] := by
      intro k hm
      rw [List.mem_append, List.mem_singleton, not_or]
      exact ⟨hseen k hm, fun he => hk (he ▸ hm)⟩
    simp only [List.map_cons, repetitionNotices, hnone]
    simpa using ih hkeys (seen ++ [key]) hnext

/-- **A start tag without labels opens its element, and nothing is told.** -/
theorem openElement_plain {name : String} {attributes : List (String × String)}
    (h : isPlainTag name (attributes.map Prod.fst) = true) :
    openElement rootBindings (.plain name) (attributes.map plainAttribute) =
      some (opened name attributes, []) := by
  obtain ⟨-, hkeys, hnodup⟩ := isPlainTag_iff.1 h
  rw [List.forall_mem_map] at hkeys
  have hnone : ∀ a ∈ attributes.map plainAttribute, Declaration.ofAttribute? a.1 a.2 = none :=
    List.forall_mem_map.2 fun a ha => ofAttribute?_plain (hkeys a ha).2 a.2
  have hdeclared : (attributes.map plainAttribute).filterMap
      (fun a => Declaration.ofAttribute? a.1 a.2) = [] :=
    List.filterMap_eq_nil_iff.2 hnone
  have hown : (attributes.map plainAttribute).filter
      (fun a => (Declaration.ofAttribute? a.1 a.2).isNone) = attributes.map plainAttribute :=
    List.filter_eq_self.2 fun a ha => Option.isNone_iff_eq_none.2 (hnone a ha)
  have hnotices : (attributes.map plainAttribute).flatMap attributeNotices = [] :=
    List.flatMap_eq_nil_iff.2 <| List.forall_mem_map.2 fun a ha =>
      attributeNotices_plain (hkeys a ha).1 (hkeys a ha).2 a.2
  have hnames : (attributes.map plainAttribute).map Prod.fst =
      (attributes.map Prod.fst).map QName.plain := by
    simp [plainAttribute]
  have hknown : ∀ q ∈ QName.plain name :: (attributes.map Prod.fst).map QName.plain,
      Bindings.knows rootBindings q = true :=
    List.forall_mem_cons.2 ⟨rfl, List.forall_mem_map.2 fun _ _ => rfl⟩
  have hunknown : (QName.plain name :: (attributes.map Prod.fst).map QName.plain).filter
      (!Bindings.knows rootBindings ·) = [] :=
    List.filter_eq_nil_iff.2 fun q hq => by simp [hknown q hq]
  have hrepeated := repetitionNotices_plain hnodup [] (by simp) rootBindings
  rw [List.map_nil] at hrepeated
  simp only [openElement, hdeclared, hown, hnotices, List.filter_nil, List.map_nil,
    List.nil_append, hnames, List.filter_eq_self.2 (List.forall_mem_cons.1 hknown).2, hunknown,
    hrepeated]
  simp [allDistinct, opened, plainAttribute, Function.comp_def]

/-! ## The machine on written tags -/

namespace OpenElement

/-- The open element with one more child. -/
def addChild (e : OpenElement) (n : Node) : OpenElement :=
  { e with sealed := true, children := e.children ++ [n] }

/-- The open element with blanks, if there are any. -/
def addBlanks (e : OpenElement) (blanks : List Char) : OpenElement :=
  if blanks = [] then e else e.addText blanks

/-- The open element with the elements and blanks of some markup. -/
def addSource (e : OpenElement) : Source → OpenElement
  | .done blanks => e.addBlanks blanks
  | .leaf blanks tag texts rest =>
    ((e.addBlanks blanks).addChild
      (.node tag [] (some (String.ofList texts.flatten)) [])).addSource rest
  | .group blanks tag attributes inner rest =>
    ((e.addBlanks blanks).addChild
      (.node tag attributes (Source.blankText inner.lead) inner.nodes)).addSource rest

theorem addText_addText (e : OpenElement) (a b : List Char) :
    (e.addText a).addText b = e.addText (a ++ b) := by
  unfold addText
  split <;> simp_all

@[simp]
theorem bindings_addBlanks (e : OpenElement) (blanks : List Char) :
    (e.addBlanks blanks).bindings = e.bindings := by
  unfold addBlanks addText
  split
  · rfl
  · split <;> rfl

@[simp]
theorem name_addText (e : OpenElement) (cs : List Char) : (e.addText cs).name = e.name := by
  unfold addText
  split <;> rfl

/-- Behind a child only further children count. -/
theorem addSource_of_sealed {e : OpenElement} (h : e.sealed = true) (m : Source) :
    e.addSource m = { e with children := e.children ++ m.nodes } := by
  have hblanks : ∀ {e : OpenElement} (blanks : List Char), e.sealed = true →
      e.addBlanks blanks = e := by
    intro e blanks h
    rw [addBlanks, addText, if_pos h, ite_self]
  induction m generalizing e with
  | done blanks => simp [addSource, hblanks blanks h, Source.nodes]
  | leaf blanks tag texts rest ih =>
    rw [addSource, hblanks blanks h, ih rfl]
    simp [addChild, Source.nodes, h]
  | group blanks tag attributes inner rest _ ih =>
    rw [addSource, hblanks blanks h, ih rfl]
    simp [addChild, Source.nodes, h]

/-- An element with some markup in it is the node that it should be. -/
theorem toNode_addSource_opened (tag : String) (attributes : List (String × String)) (m : Source) :
    ((opened tag attributes).addSource m).toNode =
      .node tag attributes (Source.blankText m.lead) m.nodes := by
  have hblanks : ∀ blanks : List Char, (opened tag attributes).addBlanks blanks =
      { opened tag attributes with text := if blanks = [] then none else some blanks } := by
    intro blanks
    rw [addBlanks]
    split <;> rfl
  have htext : ∀ blanks : List Char, (if blanks = [] then none else some blanks).map String.ofList =
      Source.blankText blanks := by
    intro blanks
    rw [Source.blankText]
    split <;> rfl
  cases m with
  | done blanks =>
    rw [addSource, hblanks]
    exact congrArg (Node.node tag attributes · []) (htext blanks)
  | _ =>
    rw [addSource, hblanks, addSource_of_sealed rfl]
    exact congrArg (Node.node tag attributes · _) (htext _)

@[simp]
theorem name_addSource (e : OpenElement) (m : Source) : (e.addSource m).name = e.name := by
  have hblanks : ∀ (e : OpenElement) (blanks : List Char), (e.addBlanks blanks).name = e.name := by
    intro e blanks
    rw [addBlanks]
    split
    · rfl
    · exact name_addText e blanks
  induction m generalizing e with
  | done blanks => exact hblanks e blanks
  | leaf blanks tag texts rest ih => exact (ih _).trans (hblanks e blanks)
  | group blanks tag attributes inner rest _ ih => exact (ih _).trans (hblanks e blanks)

end OpenElement

namespace Progress

/-- The state inside these open elements, innermost first. -/
def inside (stack : List OpenElement) : Progress := { stack }

/-- The state after an element inside these open elements was closed. -/
def behind (n : Node) : List OpenElement → Progress
  | [] => { root := some n }
  | e :: stack => inside (e.addChild n :: stack)

/-- Inside these open elements no label is declared, and elements can nest `height` deeper. -/
structure HasRoom (height : Nat) (stack : List OpenElement) : Prop where
  bindings : ∀ e ∈ stack.head?, e.bindings = rootBindings
  depth : stack.length + height ≤ maxElementDepth

variable {stack : List OpenElement}

theorem HasRoom.mono {height height' : Nat} (h : HasRoom height' stack) (hle : height ≤ height') :
    HasRoom height stack where
  bindings := h.bindings
  depth := by have := h.depth; omega

theorem HasRoom.into {height : Nat} (h : HasRoom (height + 1) stack) {e : OpenElement}
    (hb : e.bindings = rootBindings) : HasRoom height (e :: stack) where
  bindings := by simpa using hb
  depth := by have := h.depth; rw [List.length_cons]; omega

/-- What was read of the innermost element makes no difference. -/
theorem HasRoom.congr {height : Nat} {e e' : OpenElement} (h : HasRoom height (e :: stack))
    (hb : e'.bindings = e.bindings) : HasRoom height (e' :: stack) where
  bindings := by simpa [hb] using h.bindings
  depth := h.depth

theorem leave_inside (e : OpenElement) (stack : List OpenElement) :
    (inside (e :: stack)).leave = some (behind e.toNode stack) := by
  cases stack <;> rfl

/-- A start tag without labels opens its element, where there is room. -/
theorem enter_plain {name : String} {attributes : List (String × String)}
    (h : isPlainTag name (attributes.map Prod.fst) = true) (hr : HasRoom 1 stack) :
    (inside stack).enter (.plain name) (attributes.map plainAttribute) =
      some (inside (opened name attributes :: stack)) := by
  have haround : ((inside stack).stack.head?.map OpenElement.bindings).getD
      [(some "xml", xmlSpace)] = rootBindings := by
    cases stack with
    | nil => rfl
    | cons e stack => exact hr.bindings e rfl
  have hid : (attributes.map plainAttribute).find? (fun a => a.1.text == "xml:id") = none := by
    rw [List.find?_eq_none, List.forall_mem_map]
    intro a ha
    simp only [plainAttribute, text_plain, beq_iff_eq]
    exact ne_of_test (isPlainName_of_isPlainTag h a ha) (by decide)
  have hroom : ¬ ((inside stack).root.isSome ||
      decide (maxElementDepth ≤ (inside stack).stack.length)) = true := by
    rw [Bool.or_eq_true, not_or]
    exact ⟨Bool.false_ne_true, fun h => Nat.not_le_of_lt hr.depth (of_decide_eq_true h)⟩
  simp only [enter, haround, openElement_plain h, hid, if_neg hroom]
  rfl

theorem step_opening {name : String} {attributes : List (String × String)}
    (h : isPlainTag name (attributes.map Prod.fst) = true) (hr : HasRoom 1 stack) :
    (inside stack).step (.opening (.plain name) (attributes.map plainAttribute) false) =
      some (inside (opened name attributes :: stack)) := by
  simp only [step, enter_plain h hr]
  rfl

theorem step_opening_closed {name : String} {attributes : List (String × String)}
    (h : isPlainTag name (attributes.map Prod.fst) = true) (hr : HasRoom 1 stack) :
    (inside stack).step (.opening (.plain name) (attributes.map plainAttribute) true) =
      some (behind (opened name attributes).toNode stack) := by
  simp only [step, enter_plain h hr]
  exact leave_inside _ _

theorem step_closing {e : OpenElement} {name : String} (h : e.name = .plain name) :
    (inside (e :: stack)).step (.closing (.plain name)) = some (behind e.toNode stack) := by
  have hname : (inside (e :: stack)).stack.head?.map OpenElement.name = some (.plain name) :=
    congrArg some h
  rw [step, if_pos hname]
  exact leave_inside e stack

theorem expandReferences_blanks {blanks : List Char} (h : ∀ c ∈ blanks, isSpace c = true) :
    expandReferences blanks = some blanks := by
  induction blanks with
  | nil => rfl
  | cons c blanks ih =>
    obtain ⟨hc, hblanks⟩ := List.forall_mem_cons.1 h
    rw [expandReferences, expandFrom, if_neg (ne_of_test hc (by decide))]
    exact congrArg (Option.map (c :: ·)) (ih hblanks)

theorem step_blanks {blanks : List Char} (h : ∀ c ∈ blanks, isSpace c = true) (e : OpenElement)
    (stack : List OpenElement) :
    (inside (e :: stack)).step (.text blanks) = some (inside (e.addText blanks :: stack)) := by
  simp only [step, expandReferences_blanks h]
  rfl

end Progress

/-! ## Reading a text event by event -/

open Progress

/-- Reading the text from the state `p` on ends in a state with the property `Q`. -/
def Reads (cs : List Char) (p : Progress) (Q : Progress → Prop) : Prop :=
  ∃ es q, events cs = some es ∧ es.foldlM Progress.step p = some q ∧ Q q

namespace Reads

variable {rest : List Char} {p p' : Progress} {Q : Progress → Prop} {stack : List OpenElement}
  {e : OpenElement}

theorem nil (h : Q p) : Reads [] p Q := ⟨[], p, rfl, rfl, h⟩

/-- One event is read, then the rest. -/
theorem event {front : List Char} {ev : Event} (he : readEvent (front ++ rest) = some (ev, rest))
    (hne : front ≠ []) (hs : p.step ev = some p') (h : Reads rest p' Q) :
    Reads (front ++ rest) p Q := by
  obtain ⟨es, q, hes, hq, hQ⟩ := h
  have hlt : rest.length < (front ++ rest).length := by
    have := List.length_pos_iff.2 hne
    rw [List.length_append]; omega
  refine ⟨ev :: es, q, events_cons he hlt hes, ?_, hQ⟩
  rw [List.foldlM_cons, hs]
  exact hq

theorem blanks {blanks : List Char} (hne : blanks ≠ []) (hb : ∀ c ∈ blanks, isSpace c = true)
    (hr : ∀ c ∈ rest.head?, c = '<') (h : Reads rest (inside (e.addText blanks :: stack)) Q) :
    Reads (blanks ++ rest) (inside (e :: stack)) Q :=
  event (readEvent_blanks hne hb hr) hne (step_blanks hb e stack) h

theorem closing {name : String} (hp : isPlainName name = true) (hname : e.name = .plain name)
    (h : Reads rest (behind e.toNode stack) Q) :
    Reads (closingText name ++ rest) (inside (e :: stack)) Q :=
  event (readEvent_closingText hp rest) (by simp [closingText]) (step_closing hname) h

variable {name : String} {attributes : List (String × String)}

theorem opening (hp : isPlainTag name (attributes.map Prod.fst) = true) (hr : HasRoom 1 stack)
    (h : Reads rest (inside (opened name attributes :: stack)) Q) :
    Reads (openingText name attributes false ++ rest) (inside stack) Q :=
  event (readEvent_openingText (isPlainTag_iff.1 hp).1 (isPlainName_of_isPlainTag hp) false rest)
    (by simp [openingText]) (step_opening hp hr) h

theorem opening_closed (hp : isPlainTag name (attributes.map Prod.fst) = true)
    (hr : HasRoom 1 stack) (h : Reads rest (behind (opened name attributes).toNode stack) Q) :
    Reads (openingText name attributes true ++ rest) (inside stack) Q :=
  event (readEvent_openingText (isPlainTag_iff.1 hp).1 (isPlainName_of_isPlainTag hp) true rest)
    (by simp [openingText]) (step_opening_closed hp hr) h

theorem isSpace_of_blank {blanks : List Char} (hb : Blank blanks) :
    ∀ c ∈ blanks, isSpace c = true := by
  intro c hc
  rcases hb c hc with rfl | rfl <;> rfl

/-- Blanks in front of a tag are read as text, if there are any. -/
theorem lead {blanks : List Char} (hb : Blank blanks) (hr : ∀ c ∈ rest.head?, c = '<')
    (h : Reads rest (inside (e.addBlanks blanks :: stack)) Q) :
    Reads (blanks ++ rest) (inside (e :: stack)) Q := by
  rw [OpenElement.addBlanks] at h
  split at h
  · rename_i hnil
    rwa [hnil]
  · rename_i hne
    exact .blanks hne (isSpace_of_blank hb) hr h

/-- **Adjacent sections are read as one text.** -/
theorem sections {texts : List (List Char)} (hne : texts ≠ [])
    (htexts : ∀ cs ∈ texts, ¬ sectionEnd <:+: cs)
    (h : Reads rest (inside (e.addText texts.flatten :: stack)) Q) :
    Reads (texts.flatMap (fun cs => sectionStart ++ cs ++ sectionEnd) ++ rest)
      (inside (e :: stack)) Q := by
  induction texts generalizing e with
  | nil => exact absurd rfl hne
  | cons cs texts ih =>
    obtain ⟨hcs, hmore⟩ := List.forall_mem_cons.1 htexts
    rw [List.flatMap_cons, List.append_assoc]
    refine event (readEvent_section hcs _) (by simp [sectionStart]) rfl ?_
    rw [List.flatten_cons, ← OpenElement.addText_addText] at h
    cases texts with
    | nil =>
      -- nothing more comes, and adding no text changes nothing
      have hnone : (e.addText cs).addText [] = e.addText cs := by
        rw [OpenElement.addText_addText, List.append_nil]
      rw [List.flatten_nil, hnone] at h
      exact h
    | cons next texts => exact ih (List.cons_ne_nil next texts) hmore h

end Reads

/-! ## Markup inside an element -/

/-- Inside an element with room for `depth` more, the markup is read as the elements in it. -/
def ReadsInside (depth : Nat) (m : Source) : Prop :=
  ∀ {e : OpenElement} {stack : List OpenElement} {rest : List Char} {Q : Progress → Prop},
    HasRoom depth (e :: stack) → (∀ c ∈ rest.head?, c = '<') →
    Reads rest (inside (e.addSource m :: stack)) Q → Reads (m.chars ++ rest) (inside (e :: stack)) Q

theorem head?_openingText {name : String} {attributes : List (String × String)} {closed : Bool}
    {rest : List Char} : ∀ c ∈ (openingText name attributes closed ++ rest).head?, c = '<' := by
  simp [openingText]

theorem head?_closingText {name : String} {rest : List Char} :
    ∀ c ∈ (closingText name ++ rest).head?, c = '<' := by
  simp [closingText]

theorem isPlainTag_nil {name : String} (h : isPlainName name = true) :
    isPlainTag name [] = true := by
  simp [isPlainTag, h]

section
variable {stack : List OpenElement} {rest : List Char} {Q : Progress → Prop} {tag : String}

/-- An element with a text in sections is read. -/
theorem reads_leaf {texts : List (List Char)} (htag : isPlainName tag = true) (hne : texts ≠ [])
    (htexts : ∀ cs ∈ texts, Portable cs ∧ ¬ sectionEnd <:+: cs) (hroom : HasRoom 1 stack)
    (h : Reads rest (behind (.node tag [] (some (String.ofList texts.flatten)) []) stack) Q) :
    Reads (openingText tag [] false ++
      (texts.flatMap (fun cs => sectionStart ++ cs ++ sectionEnd) ++ (closingText tag ++ rest)))
      (inside stack) Q := by
  refine .opening (isPlainTag_nil htag) hroom ?_
  exact .sections hne (fun cs hcs => (htexts cs hcs).2)
    (.closing htag (OpenElement.name_addText _ _) h)

/-- An element with other elements in it is read, if these are. -/
theorem reads_group {depth : Nat} {attributes : List (String × String)} {inner : Source}
    (htag : isPlainTag tag (attributes.map Prod.fst) = true) (hinner : ReadsInside depth inner)
    (hroom : HasRoom (depth + 1) stack)
    (h : Reads rest (behind (.node tag attributes (Source.blankText inner.lead) inner.nodes) stack)
      Q) :
    Reads (openingText tag attributes inner.isEmpty ++
      ((if inner.isEmpty then [] else inner.chars ++ closingText tag) ++ rest)) (inside stack) Q := by
  have hone : HasRoom 1 stack := hroom.mono (by omega)
  cases hempty : inner.isEmpty with
  | true =>
    obtain rfl : inner = .done [] := by
      unfold Source.isEmpty at hempty
      split at hempty
      · rfl
      · cases hempty
    exact .opening_closed htag hone h
  | false =>
    rw [if_neg Bool.false_ne_true, List.append_assoc]
    refine .opening htag hone (hinner (hroom.into rfl) head?_closingText ?_)
    refine .closing (isPlainTag_iff.1 htag).1 (OpenElement.name_addSource _ _) ?_
    rwa [OpenElement.toNode_addSource_opened]

end

/-- **Sound markup inside an element is read as the elements in it.** -/
theorem readsInside_of_sound {depth : Nat} {m : Source} (h : m.Sound depth) :
    ReadsInside depth m := by
  induction h with
  | done hblanks => exact fun _ hrest h => .lead hblanks hrest h
  | @leaf depth blanks tag texts rest hblanks htag hne htexts _ ih =>
    intro e stack following Q hroom hrest h
    have hmore : HasRoom (depth + 1) (e.addBlanks blanks :: stack) :=
      hroom.congr (e.bindings_addBlanks blanks)
    simp only [Source.chars, List.append_assoc]
    refine .lead hblanks head?_openingText (reads_leaf htag hne htexts (hmore.mono (by omega)) ?_)
    exact ih (hmore.congr rfl) hrest h
  | @group depth blanks tag attributes inner rest hblanks htag _ _ _ ihinner ih =>
    intro e stack following Q hroom hrest h
    have hmore : HasRoom (depth + 1) (e.addBlanks blanks :: stack) :=
      hroom.congr (e.bindings_addBlanks blanks)
    simp only [Source.chars, List.append_assoc]
    refine .lead hblanks head?_openingText (reads_group htag ihinner hmore ?_)
    exact ih (hmore.congr rfl) hrest h

/-! ## Characters -/

theorem portable_flatMap_attributeChar {cs : List Char} (h : Portable cs) :
    Portable (cs.flatMap attributeChar) := by
  have hescapes : ∀ p ∈ attributeEscapes, Portable p.2 := by decide
  refine portable_flatMap fun c hc => ?_
  rcases attributeChar_cases c with hm | ⟨heq, -⟩
  · exact hescapes _ hm
  · rw [heq]
    exact portable_cons.2 ⟨h c hc, by decide⟩

theorem portable_attributeText {a : String × String} (h : isPlainName a.1 = true)
    (hv : Portable a.2.toList) : Portable (attributeText a) := by
  simp only [attributeText, portable_append, portable_cons]
  exact ⟨⟨⟨by decide, portable_of_isPlainName h⟩, by decide, by decide, portable_flatMap_attributeChar hv⟩,
    by decide, by decide⟩

theorem portable_openingText {name : String} {attributes : List (String × String)}
    (h : isPlainTag name (attributes.map Prod.fst) = true)
    (hv : ∀ a ∈ attributes, Portable a.2.toList) (closed : Bool) :
    Portable (openingText name attributes closed) := by
  have hend : Portable (tagEnd closed) := by
    cases closed <;> decide
  simp only [openingText, portable_append, portable_cons]
  exact ⟨⟨⟨by decide, portable_of_isPlainName (isPlainTag_iff.1 h).1⟩, portable_flatMap fun a ha =>
    portable_attributeText (isPlainName_of_isPlainTag h a ha) (hv a ha)⟩, hend⟩

theorem portable_closingText {name : String} (h : isPlainName name = true) :
    Portable (closingText name) := by
  simp only [closingText, portable_append, portable_cons]
  exact ⟨⟨by decide, by decide, portable_of_isPlainName h⟩, by decide, by decide⟩

theorem portable_of_blank {cs : List Char} (h : Blank cs) : Portable cs := by
  intro c hc
  rcases h c hc with rfl | rfl <;> decide

/-- Sound markup is made of characters that documents keep. -/
theorem portable_of_sound {depth : Nat} {m : Source} (h : m.Sound depth) : Portable m.chars := by
  induction h with
  | done hblanks => exact portable_of_blank hblanks
  | leaf hblanks htag _ htexts _ ih =>
    have hparts := portable_flatMap fun cs hcs =>
      portable_append.2 ⟨portable_append.2 ⟨(by decide : Portable sectionStart), (htexts cs hcs).1⟩,
        (by decide : Portable sectionEnd)⟩
    simp only [Source.chars, portable_append]
    exact ⟨⟨⟨⟨portable_of_blank hblanks, portable_openingText (isPlainTag_nil htag) (by simp) false⟩,
      hparts⟩, portable_closingText htag⟩, ih⟩
  | @group _ _ tag _ inner _ hblanks htag hvalues _ _ ihinner ih =>
    have hcontent : Portable (if inner.isEmpty then [] else inner.chars ++ closingText tag) := by
      split
      · exact List.forall_mem_nil _
      · exact portable_append.2 ⟨ihinner, portable_closingText (isPlainTag_iff.1 htag).1⟩
    simp only [Source.chars, portable_append]
    exact ⟨⟨⟨portable_of_blank hblanks, portable_openingText htag hvalues _⟩, hcontent⟩, ih⟩

/-- Line ends that are line feeds already stay as they are. -/
theorem normalizeLines_of_portable {cs : List Char} (h : Portable cs) : normalizeLines cs = cs := by
  induction cs with
  | nil => rfl
  | cons c cs ih =>
    obtain ⟨⟨-, hc⟩, hcs⟩ := portable_cons.1 h
    unfold normalizeLines
    split <;> simp_all

/-! ## Documents -/

/-- Blanks around the root are passed over. -/
theorem Reads.around {p : Progress} {blanks rest : List Char} {Q : Progress → Prop}
    (h : Reads rest p Q) (hp : p.stack = []) (hb : Blank blanks) (hr : ∀ c ∈ rest.head?, c = '<') :
    Reads (blanks ++ rest) p Q := by
  by_cases hne : blanks = []
  · rwa [hne]
  · have hstep : p.step (.text blanks) = some p := by
      have hall : blanks.all isSpace = true := List.all_eq_true.2 (isSpace_of_blank hb)
      rw [Progress.step, hp]
      exact if_pos hall
    exact .event (readEvent_blanks hne (isSpace_of_blank hb) hr) hne hstep h

/-- **Sound markup with one element is read as this element.** -/
theorem reads_of_sound {m : Source} {n : Node} (h : m.Sound maxElementDepth) (hn : m.nodes = [n]) :
    Reads m.chars (inside []) (· = { root := some n }) := by
  have hroom : HasRoom maxElementDepth [] := ⟨by simp, by simp⟩
  have hend : ∀ {rest : Source}, rest.Sound maxElementDepth → rest.nodes = [] →
      Reads rest.chars (behind n []) (· = { root := some n }) := by
    intro rest hrest hnodes
    cases hrest with
    | done hblanks =>
      have hlast : Reads [] (behind n []) (· = { root := some n }) := .nil rfl
      have hread := hlast.around rfl hblanks (by simp)
      rwa [List.append_nil] at hread
    | leaf => cases hnodes
    | group => cases hnodes
  cases h with
  | done => cases hn
  | leaf hblanks htag hne htexts hrest =>
    obtain ⟨rfl, hnodes⟩ := List.cons.inj hn
    simp only [Source.chars, List.append_assoc]
    exact (reads_leaf htag hne htexts (hroom.mono (by decide)) (hend hrest hnodes)).around rfl
      hblanks head?_openingText
  | group hblanks htag _ hinner hrest =>
    obtain ⟨rfl, hnodes⟩ := List.cons.inj hn
    simp only [Source.chars, List.append_assoc]
    exact (reads_group htag (readsInside_of_sound hinner) hroom (hend hrest hnodes)).around rfl
      hblanks head?_openingText

/-- Sound markup starts with a blank or with a tag, if it holds an element. -/
theorem exists_chars_eq_cons {depth : Nat} {m : Source} (h : m.Sound depth) (hn : m.nodes ≠ []) :
    ∃ c cs, m.chars = c :: cs ∧ (c = '<' → ∃ d ds, cs = d :: ds ∧ isNameStart d = true) ∧
      c ≠ '\uFEFF' := by
  have hlead : ∀ {blanks : List Char} {name : String} {attributes : List (String × String)}
      {closed : Bool} {rest : List Char}, Blank blanks → isPlainName name = true →
      ∃ c cs, blanks ++ (openingText name attributes closed ++ rest) = c :: cs ∧
        (c = '<' → ∃ d ds, cs = d :: ds ∧ isNameStart d = true) ∧ c ≠ '\uFEFF' := by
    intro blanks name attributes closed rest hblanks hname
    cases blanks with
    | nil =>
      obtain ⟨d, ds, hds, hd, -⟩ := isPlainName_iff.1 hname
      exact ⟨'<', _, rfl, fun _ => ⟨d, _, by simp only [hds]; rfl, hd⟩, by decide⟩
    | cons c blanks =>
      have hblank : c ≠ '<' ∧ c ≠ '\uFEFF' := by
        rcases hblanks c List.mem_cons_self with rfl | rfl <;> decide
      exact ⟨c, _, rfl, fun h => absurd h hblank.1, hblank.2⟩
  cases h with
  | done => exact absurd rfl hn
  | leaf hblanks htag =>
    simp only [Source.chars, List.append_assoc]
    exact hlead hblanks htag
  | group hblanks htag =>
    simp only [Source.chars, List.append_assoc]
    exact hlead hblanks (isPlainTag_iff.1 htag).1

theorem skipDeclaration_of_not_mark {c : Char} {cs : List Char}
    (h : c = '<' → ∃ d ds, cs = d :: ds ∧ isNameStart d = true) :
    skipDeclaration (c :: cs) = some ([], c :: cs) := by
  unfold skipDeclaration
  split
  · rename_i heq
    obtain ⟨rfl, rfl⟩ := List.cons.inj heq
    obtain ⟨d, ds, hds, hd⟩ := h rfl
    cases hds
    exact absurd hd (by decide)
  · rfl

/-- **A document of sound markup is read as the element in it.** -/
theorem read_of_sound {m : Source} {n : Node} (h : m.Sound maxElementDepth) (hn : m.nodes = [n]) :
    Document.read (String.ofList m.chars) = some n := by
  obtain ⟨es, q, hes, hq, rfl⟩ := reads_of_sound h hn
  have hportable := portable_of_sound h
  have hall : m.chars.all isDocumentChar = true :=
    List.all_eq_true.2 fun c hc => (hportable c hc).1
  obtain ⟨c, cs, hcs, htag, hmark⟩ := exists_chars_eq_cons h (by simp [hn])
  have hskip : skipDeclaration m.chars = some ([], m.chars) := by
    rw [hcs]
    exact skipDeclaration_of_not_mark htag
  have hread : Document.read (String.ofList m.chars) = (do
      if !m.chars.all isDocumentChar then none
      let r ← skipDeclaration (normalizeLines m.chars)
      let p ← (← events r.2).foldlM Progress.step (Progress.tell {} r.1)
      if p.stack.isEmpty && p.report.accepts then p.root else none) := by
    rw [Document.read, String.toList_ofList, hcs]
    split
    · rename_i heq
      exact absurd (List.cons.inj heq).1 hmark
    · rfl
  have hstart : Progress.tell {} [] = inside [] := rfl
  rw [hread, hall, normalizeLines_of_portable hportable, hskip]
  simp [hes, hstart, hq, Report.accepts]

/-! ## The library -/

/-- What can be written holds no characters that documents cannot hold. -/
theorem areLegible_of_sound {depth : Nat} {ds : List Draft} (h : Draft.Sound depth ds) :
    areLegible ds = true := by
  have hlegible : ∀ {s : String}, Portable s.toList → isLegible s = true := fun hs =>
    List.all_eq_true.2 fun c hc => (hs c hc).1
  induction h with
  | nil => rfl
  | leaf _ htext _ ih =>
    rw [areLegible, isLegibleDraft, hlegible htext, ih]
    rfl
  | group _ hvalues _ _ ihchildren ih =>
    rw [areLegible, isLegibleDraft, ihchildren, ih,
      List.all_eq_true.2 fun a ha => hlegible (hvalues a ha)]
    rfl

theorem blank_inwards {outer : List Char} (h : Blank outer) : Blank (inwards outer) :=
  List.forall_mem_append.2 ⟨h, by simp⟩

mutual
/-- **Lines are markup that the elements on them are written as.** -/
theorem spelledAs_layLine {outer : List Char} (h : Blank outer) {ds : List Draft} {rest : Source}
    (hrest : SpelledAs ds rest) : ∀ d, SpelledAs (d :: ds) (layLine outer rest d)
  | .leaf _ _ => .leaf h hrest
  | .group _ _ children => .group h (spelledAs_layInside h children) hrest

theorem spelledAs_layInside {outer : List Char} (h : Blank outer) :
    ∀ ds, SpelledAs ds (layInside outer ds)
  | [] => .nil (List.forall_mem_nil _)
  | d :: ds => spelledAs_layLine (blank_inwards h) (spelledAs_layLines h ds) d

theorem spelledAs_layLines {outer : List Char} (h : Blank outer) :
    ∀ ds, SpelledAs ds (layLines outer ds)
  | [] => .nil h
  | d :: ds => spelledAs_layLine (blank_inwards h) (spelledAs_layLines h ds) d
end

theorem spelledAs_layOut (d : Draft) : SpelledAs [d] (layOut d) := by
  have hbreak : Blank ['\n'] := List.forall_mem_singleton.2 (.inr rfl)
  cases d with
  | leaf tag text => exact .leaf (List.forall_mem_nil _) (.nil hbreak)
  | group tag attributes children =>
    exact .group (List.forall_mem_nil _) (spelledAs_layInside hbreak children) (.nil hbreak)

theorem fromUTF8?_toUTF8 (s : String) : String.fromUTF8? s.toUTF8 = some s := dif_pos s.isValidUTF8

/-- A document in UTF-8 is read as its text is. -/
theorem xml_read_toUTF8 (text : String) : xml.read text.toUTF8 = Document.read text :=
  congrArg (·.bind Document.read) (fromUTF8?_toUTF8 text)

/-- **The stand-in is faithful.** -/
theorem faithful_xml : xml.Faithful where
  writes d hd := ⟨layOut d, spelledAs_layOut d, if_pos (areLegible_of_sound hd)⟩
  reads m _ hm hn := (xml_read_toUTF8 (String.ofList m.chars)).trans (read_of_sound hm hn)

end RelayLadder.StandIn
