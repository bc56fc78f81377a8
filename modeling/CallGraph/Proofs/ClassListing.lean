/-
**What a list of class references says.**

A call enters a class when its callee is in the class, by its name with or without the namespace and
in any case, and its caller is in another one (`Edge.Enters`). `ClassReference.Lists` ties a list of
references to the edges that enter a class: each class that an edge enters from is there once, in
the order of the first such edges and with what the first one says. One more edge keeps the list so,
whether it changes it or not (`Lists.keep`, `Lists.append`), and all edges together make the list
that a query is answered with (`Lists.keepNew`).

A class that is known has a name with content (`Index.Built.ne_empty_of_hasClass`), so a query for
it is never refused as blank.

* `class_references_listed`: the answer about a known class lists the classes that call into it, and
  spellings with the same trimmed lower-case form have the same answer;
* `padded_class_unknown`: the index itself does not trim the name that it is asked for.
-/

import CallGraph.Proofs.Adjacency
import CallGraph.Proofs.ClassReferences

namespace CallGraph

/-! ### Calls into a class -/

/-- A call into a class from another one: the callee is in the class, named with or without its
namespace and in any case, and the class of the caller is neither that class nor the callee's. -/
def Edge.Enters (edge : Edge) (callerClass class_ : String) : Prop :=
  edge.caller.typePath.display = callerClass ∧
    (Text.lower edge.callee.typePath.display = Text.lower class_ ∨
      Text.lower edge.callee.type.display = Text.lower class_) ∧
    Text.lower callerClass ≠ Text.lower class_ ∧
    Text.lower callerClass ≠ Text.lower edge.callee.typePath.display

instance (edge : Edge) (callerClass class_ : String) :
    Decidable (edge.Enters callerClass class_) :=
  inferInstanceAs (Decidable (_ ∧ _ ∧ _ ∧ _))

/-- What an edge says of its caller. -/
def Edge.asReference (edge : Edge) : ClassReference :=
  ⟨edge.caller.typePath.display, edge.caller.type, edge.caller.scope, edge.site⟩

namespace ClassReference

variable {references : List ClassReference} {edges : List Edge} {edge : Edge} {class_ : String}

theorem made?_of_enters (enters : edge.Enters edge.asReference.name class_) :
    made? (Text.lower class_) edge = some edge.asReference := by
  obtain ⟨-, inside, other, leaves⟩ := enters
  unfold made?
  dsimp only
  rw [if_neg fun apart => inside.elim (fun same => apart.1 same.symm) fun same => apart.2 same.symm,
    if_neg fun stays => stays.elim other leaves]
  rfl

theorem made?_of_not_enters (stays : ¬ edge.Enters edge.asReference.name class_) :
    made? (Text.lower class_) edge = none := by
  unfold made?
  dsimp only
  split
  · rfl
  · rename_i inside
    refine if_pos (by_contra fun leaves => stays ⟨rfl, ?_, ?_, ?_⟩)
    · rw [not_and_or, not_not, not_not] at inside
      exact inside.imp Eq.symm Eq.symm
    · exact fun same => leaves (Or.inl same)
    · exact fun same => leaves (Or.inr same)

/-! ### Lists of references -/

/-- The position of the first edge that enters a class from another one. -/
def firstEntry (edges : List Edge) (class_ callerClass : String) : Nat :=
  edges.findIdx fun edge => edge.Enters callerClass class_

/-- **The references to a class** that some edges make. -/
structure Lists (edges : List Edge) (class_ : String) (references : List ClassReference) :
    Prop where
  /-- The classes are those from which an edge enters. -/
  named : ∀ callerClass, callerClass ∈ references.map name ↔
    ∃ edge ∈ edges, edge.Enters callerClass class_
  /-- They come in the order of the first edges that enter from them. -/
  ordered : references.Pairwise fun earlier later =>
    firstEntry edges class_ earlier.name < firstEntry edges class_ later.name
  /-- Each carries what that first edge says. -/
  first : ∀ reference ∈ references,
    (edges.find? fun edge => edge.Enters reference.name class_).map Edge.asReference =
      some reference

theorem Lists.nil (class_ : String) : Lists [] class_ [] where
  named callerClass := by simp
  ordered := List.Pairwise.nil
  first reference listed := (List.not_mem_nil listed).elim

/-- No class is there twice. -/
theorem Lists.nodup_name (lists : Lists edges class_ references) :
    (references.map name).Nodup := by
  rw [List.Nodup, List.pairwise_map]
  refine lists.ordered.imp fun {earlier later} before same => ?_
  rw [same] at before
  exact Nat.lt_irrefl _ before

theorem Lists.firstEntry_lt (lists : Lists edges class_ references) {reference : ClassReference}
    (listed : reference ∈ references) :
    firstEntry edges class_ reference.name < edges.length := by
  obtain ⟨edge, isEdge, enters⟩ := (lists.named reference.name).mp (List.mem_map_of_mem listed)
  exact List.findIdx_lt_length_of_exists ⟨edge, isEdge, decide_eq_true enters⟩

/-- A further edge does not change where a class was entered from first. -/
theorem Lists.firstEntry_concat (lists : Lists edges class_ references)
    {reference : ClassReference} (listed : reference ∈ references) (edge : Edge) :
    firstEntry (edges ++ [edge]) class_ reference.name =
      firstEntry edges class_ reference.name := by
  unfold firstEntry
  rw [List.findIdx_append]
  exact if_pos (lists.firstEntry_lt listed)

theorem Lists.ordered_concat (lists : Lists edges class_ references) (edge : Edge) :
    references.Pairwise fun earlier later =>
      firstEntry (edges ++ [edge]) class_ earlier.name <
        firstEntry (edges ++ [edge]) class_ later.name := by
  refine lists.ordered.imp_of_mem fun {earlier later} isEarlier isLater before => ?_
  rw [lists.firstEntry_concat isEarlier, lists.firstEntry_concat isLater]
  exact before

theorem Lists.first_concat (lists : Lists edges class_ references) (edge : Edge) :
    ∀ reference ∈ references,
      ((edges ++ [edge]).find? fun edge => edge.Enters reference.name class_).map
        Edge.asReference = some reference := by
  intro reference listed
  obtain ⟨first, found, same⟩ := Option.map_eq_some_iff.mp (lists.first reference listed)
  rw [List.find?_append, found]
  exact congrArg some same

theorem exists_enters_concat {callerClass : String} :
    (∃ entry ∈ edges ++ [edge], entry.Enters callerClass class_) ↔
      (∃ entry ∈ edges, entry.Enters callerClass class_) ∨ edge.Enters callerClass class_ := by
  simp only [List.mem_append, List.mem_singleton, or_and_right, exists_or, exists_eq_left]

/-- **An edge that adds nothing**: it does not enter the class, or not from a new one. -/
theorem Lists.keep (lists : Lists edges class_ references)
    (idle : edge.Enters edge.asReference.name class_ →
      edge.asReference.name ∈ references.map name) :
    Lists (edges ++ [edge]) class_ references where
  named callerClass := by
    rw [exists_enters_concat, ← lists.named, iff_self_or]
    intro enters
    obtain rfl : edge.asReference.name = callerClass := enters.1
    exact idle enters
  ordered := lists.ordered_concat edge
  first := lists.first_concat edge

/-- **An edge that enters the class from a new one** is the first to do so. -/
theorem Lists.append (lists : Lists edges class_ references)
    (enters : edge.Enters edge.asReference.name class_)
    (new : edge.asReference.name ∉ references.map name) :
    Lists (edges ++ [edge]) class_ (references ++ [edge.asReference]) := by
  have unentered : ∀ entry ∈ edges, ¬ entry.Enters edge.asReference.name class_ :=
    fun entry isEdge before => new ((lists.named _).mpr ⟨entry, isEdge, before⟩)
  refine ⟨fun callerClass => ?_, ?_, ?_⟩
  · rw [List.map_append, List.map_singleton, List.mem_append, List.mem_singleton,
      exists_enters_concat, lists.named]
    refine or_congr_right ⟨fun same => ?_, fun entersToo => entersToo.1.symm⟩
    rw [same]
    exact enters
  · refine List.pairwise_append.mpr ⟨lists.ordered_concat edge, List.pairwise_singleton _ _, ?_⟩
    intro earlier isEarlier later isLater
    obtain rfl := List.mem_singleton.mp isLater
    have least : edges.length ≤ firstEntry (edges ++ [edge]) class_ edge.asReference.name := by
      unfold firstEntry
      rw [List.findIdx_append, if_neg ?_]
      · exact Nat.le_add_left _ _
      · intro within
        obtain ⟨entry, isEdge, before⟩ := List.findIdx_lt_length.mp within
        exact unentered entry isEdge (of_decide_eq_true before)
    rw [lists.firstEntry_concat isEarlier]
    exact Nat.lt_of_lt_of_le (lists.firstEntry_lt isEarlier) least
  · intro reference listed
    rcases List.mem_append.mp listed with before | last
    · exact lists.first_concat edge reference before
    · obtain rfl := List.mem_singleton.mp last
      have none : (edges.find? fun entry => entry.Enters edge.asReference.name class_) = none :=
        List.find?_eq_none.mpr fun entry isEdge before =>
          unentered entry isEdge (of_decide_eq_true before)
      have here : ([edge].find? fun entry => entry.Enters edge.asReference.name class_) =
          some edge := by
        simp [enters]
      rw [List.find?_append, none, Option.none_or, here]
      rfl

/-- **All edges.** -/
theorem Lists.keepNew {done : List Edge} (lists : Lists done class_ references)
    (rest : List Edge) :
    Lists (done ++ rest) class_
      (keepNew references (rest.filterMap (made? (Text.lower class_)))) := by
  induction rest generalizing done references with
  | nil =>
    rw [List.append_nil]
    exact lists
  | cons edge rest ih =>
    rw [List.append_cons]
    by_cases enters : edge.Enters edge.asReference.name class_
    · rw [List.filterMap_cons_some (made?_of_enters enters), ClassReference.keepNew]
      split
      · rename_i listed
        obtain ⟨other, isFound, same⟩ := List.any_eq_true.mp listed
        exact ih (lists.keep fun _ => List.mem_map.mpr ⟨other, isFound, of_decide_eq_true same⟩)
      · rename_i new
        refine ih (lists.append enters fun listed => new ?_)
        obtain ⟨other, isFound, same⟩ := List.mem_map.mp listed
        exact List.any_eq_true.mpr ⟨other, isFound, decide_eq_true same⟩
    · rw [List.filterMap_cons_none (made?_of_not_enters enters)]
      exact ih (lists.keep fun wrong => absurd wrong enters)

/-- A filter that lets calls through: none at all, or the relation in any case. -/
def PassesCalls (filter : Value) : Prop :=
  filter.isVoid = true ∨ ∃ s, filter = .text s ∧ Text.lower s = relation

theorem admits_of_passesCalls {filter : Value} (passes : PassesCalls filter) :
    admits filter = .ok true := by
  unfold admits
  rcases passes with void | ⟨s, rfl, same⟩
  · exact if_pos void
  · split
    · rfl
    · exact congrArg Except.ok (decide_eq_true same)

end ClassReference

/-! ### Names with content -/

/-- Lower case leaves no text empty. -/
theorem Text.ne_empty_of_lower {s : String} (full : s ≠ "") : lower s ≠ "" := by
  intro empty
  have chars : lowerFrom false s.toList = [] := by
    rw [← String.toList_ofList (l := lowerFrom false s.toList)]
    exact String.toList_eq_nil_iff.mpr empty
  cases read : s.toList with
  | nil => exact full (String.toList_eq_nil_iff.mp read)
  | cons c rest =>
    rw [read, lowerFrom] at chars
    have image := (List.append_eq_nil_iff.mp chars).1
    split at image
    · cases image
    · unfold lowerChar at image
      split at image
      · cases image
      · split at image
        · cases image
        · cases image

theorem Value.eq_text_of_asText {value : Value} {s : String} (read : value.asText = .ok s) :
    value = .text s := by
  cases value with
  | text given => exact congrArg Value.text (Except.ok.inj read)
  | _ => cases read

theorem Value.ne_empty_of_not_isVoid {s : String} (full : (Value.text s).isVoid = false) :
    s ≠ "" := by
  rintro rfl
  cases full

/-- A name inside a namespace has content when it has some by itself. -/
theorem ne_empty_of_qualified {scope name : Value} {s : String} (full : name.isVoid = false)
    (text : qualified scope name = .text s) : s ≠ "" := by
  unfold qualified at text
  rw [full] at text
  split at text
  · rw [if_neg Bool.false_ne_true] at text
    exact Value.ne_empty_of_not_isVoid (text ▸ full)
  · rw [if_neg Bool.false_ne_true] at text
    rintro rfl
    have chars := congrArg String.toList (Value.text.inj text)
    rw [String.toList_append, String.toList_append] at chars
    exact List.cons_ne_nil _ _ (List.append_eq_nil_iff.mp (List.append_eq_nil_iff.mp chars).1).2

theorem ne_empty_of_qualify {scope name : Value} {s : String} (full : name.isVoid = false)
    (joined : qualify scope name = .ok (.text s)) : s ≠ "" := by
  unfold qualify at joined
  split at joined
  · have text : qualified scope name = .text s := Except.ok.inj joined
    exact ne_empty_of_qualified full text
  · cases joined

/-- What steps give comes from one of them. -/
theorem exists_of_mem_mapM {α β ε : Type} {step : α → Except ε β} {items : List α}
    {results : List β} (run : items.mapM step = .ok results) {result : β}
    (listed : result ∈ results) : ∃ item ∈ items, step item = .ok result := by
  induction items generalizing results with
  | nil =>
    obtain rfl := Except.ok.inj run
    exact (List.not_mem_nil listed).elim
  | cons item rest ih =>
    rw [List.mapM_cons] at run
    cases first : step item with
    | error cause => rw [first] at run; cases run
    | ok here =>
      cases later : rest.mapM step with
      | error cause => rw [first, later] at run; cases run
      | ok more =>
        rw [first, later] at run
        obtain rfl := Except.ok.inj run
        rcases List.mem_cons.mp listed with rfl | after
        · exact ⟨item, List.mem_cons_self, first⟩
        · obtain ⟨other, isOther, gives⟩ := ih later after
          exact ⟨other, List.mem_cons_of_mem _ isOther, gives⟩

namespace Index

/-- A value that is a text with content, in lower case. -/
theorem ne_empty_of_map_lower {value : Value} {lowered : String}
    (content : ∀ s, value = .text s → s ≠ "")
    (read : value.asText.map Text.lower = .ok lowered) : lowered ≠ "" := by
  cases given : value.asText with
  | error cause => rw [given] at read; cases read
  | ok s =>
    rw [given] at read
    obtain rfl := Except.ok.inj read
    exact Text.ne_empty_of_lower (content s (Value.eq_text_of_asText given))

/-- A name that may be missing, in lower case. -/
theorem exists_of_lowered {named : Except Misuse Value} {lowered : String}
    (read : (do return Text.lower (← (← named).asText)) = Except.ok lowered) :
    ∃ value, named = .ok value ∧ value.asText.map Text.lower = .ok lowered := by
  cases named with
  | error cause => cases read
  | ok value => exact ⟨value, rfl, read⟩

theorem ne_empty_of_mem_classNames {methods : List Method} {names : List String}
    (made : classNames methods = .ok names) {name : String} (listed : name ∈ names) :
    name ≠ "" := by
  unfold classNames at made
  dsimp only [bind, Except.bind] at made
  split at made
  · cases made
  · rename_i qualified qualifies
    split at made
    · cases made
    · rename_i bare bares
      obtain rfl := Except.ok.inj made
      rcases List.mem_append.mp listed with long | short
      · obtain ⟨method, isTyped, read⟩ := exists_of_mem_mapM qualifies long
        have full : method.type.isVoid = false := by simpa using (List.mem_filter.mp isTyped).2
        obtain ⟨value, isNamed, lowered⟩ := exists_of_lowered read
        refine ne_empty_of_map_lower (fun s isText => ?_) lowered
        rw [isText] at isNamed
        exact ne_empty_of_qualify full isNamed
      · obtain ⟨method, isTyped, read⟩ := exists_of_mem_mapM bares short
        have full : method.type.isVoid = false := by simpa using (List.mem_filter.mp isTyped).2
        exact ne_empty_of_map_lower
          (fun s isText => Value.ne_empty_of_not_isVoid (isText ▸ full)) read

end Index

theorem Builder.classNames_of_finish {builder : Builder} {index : Index}
    (made : builder.finish.1 = .ok index) :
    Index.classNames builder.methods.values = .ok index.classes := by
  unfold Builder.finish Builder.index at made
  split at made
  · cases made
  · cases names : Index.classNames builder.methods.values with
    | error cause => rw [names] at made; cases made
    | ok classes =>
      rw [names] at made
      cases made
      rfl

/-- **A known class has a name with content.** -/
theorem Index.Built.ne_empty_of_hasClass {index : Index} (built : index.Built) {name : String}
    (known : index.hasClass name = true) : name ≠ "" := by
  obtain ⟨requests, made⟩ := built
  have listed : Text.lower name ∈ index.classes := List.contains_iff_mem.mp known
  rintro rfl
  exact ne_empty_of_mem_classNames (Builder.classNames_of_finish made) listed rfl

/-! ### The answer of a query -/

section Answer

variable {service : Service} {spelling : String} {filter : Value}

/-- The answer about a known class. -/
theorem Service.classReferences_of_hasClass (built : service.index.Built)
    (placed : ∀ edge ∈ service.index.edges, edge.Placed)
    (known : service.index.hasClass (Text.trim spelling) = true)
    (passes : ClassReference.PassesCalls filter) :
    service.classReferences (.text spelling) filter =
      .ok ⟨Text.trim spelling, ClassReference.keepNew []
        (service.index.edges.filterMap
          (ClassReference.made? (Text.lower (Text.trim spelling))))⟩ := by
  have named := requireName_of_trim rfl (built.ne_empty_of_hasClass known) .classRequired
  rw [classReferences_of_named named (ClassReference.admits_of_passesCalls passes) placed,
    if_pos known]

/-- A class that is not known has no answer. -/
theorem Service.hasClass_of_classReferences {answer : ClassReferences}
    (answered : service.classReferences (.text spelling) filter = .ok answer) :
    service.index.hasClass (Text.trim spelling) = true := by
  unfold classReferences requireName at answered
  dsimp only [bind, Except.bind] at answered
  split at answered
  · cases answered
  · rename_i name named
    split at named
    · cases named
    · dsimp only [Value.asText] at named
      split at named
      · cases named
      · obtain rfl := Except.ok.inj named
        split at answered
        · assumption
        · cases answered

end Answer

/-- **The references to a class.** In a built index whose types and namespaces are texts, a known
class is found under every padded spelling, for every filter that lets calls through, and the answer
lists the classes that call into it: each of them once, in the order of their first calls and with
the type, namespace and site of those. Two spellings with the same trimmed form in lower case are
both known or both not, once they are trimmed, and have the same references. -/
theorem class_references_listed (service : Service) (built : service.index.Built)
    (placed : ∀ edge ∈ service.index.edges, edge.Placed) :
    (∀ spelling filter, service.index.hasClass (Text.trim spelling) = true →
      ClassReference.PassesCalls filter →
        ∃ answer, service.classReferences (.text spelling) filter = .ok answer ∧
          (answer.references.map ClassReference.name).Nodup ∧
          ClassReference.Lists service.index.edges (Text.trim spelling) answer.references) ∧
      ∀ first second, Text.lower (Text.trim first) = Text.lower (Text.trim second) →
        service.index.hasClass (Text.trim first) = service.index.hasClass (Text.trim second) ∧
        ∀ filter other answer, ClassReference.PassesCalls filter →
          ClassReference.PassesCalls other →
          service.classReferences (.text first) filter = .ok answer →
            ∃ again, service.classReferences (.text second) other = .ok again ∧
              again.references = answer.references := by
  refine ⟨fun spelling filter known passes => ?_, fun first second same => ?_⟩
  · have lists := (ClassReference.Lists.nil (Text.trim spelling)).keepNew service.index.edges
    rw [List.nil_append] at lists
    exact ⟨_, Service.classReferences_of_hasClass built placed known passes, lists.nodup_name,
      lists⟩
  · have alike : service.index.hasClass (Text.trim first) =
        service.index.hasClass (Text.trim second) :=
      congrArg service.index.classes.contains same
    refine ⟨alike, fun filter other answer passes otherPasses answered => ?_⟩
    have known := Service.hasClass_of_classReferences answered
    rw [Service.classReferences_of_hasClass built placed known passes] at answered
    obtain rfl := Except.ok.inj answered
    refine ⟨_, Service.classReferences_of_hasClass built placed (alike ▸ known) otherPasses, ?_⟩
    rw [same]

/-! ### Two classes of one name -/

/-- A call between two classes, from a line. -/
def classCall (callerScope callerType calleeScope calleeType : String) (line : Int) : Edge where
  caller := ⟨.text ("Pay" ++ callerType), .text callerType, .text callerScope⟩
  callee := ⟨.text ("Charge" ++ calleeScope), .text calleeType, .text calleeScope⟩
  site := ⟨.text "Cart.cs", .int line⟩
  resolvedFrom := .text ""

theorem placed_classCall (callerScope callerType calleeScope calleeType : String) (line : Int) :
    (classCall callerScope callerType calleeScope calleeType line).Placed :=
  ⟨⟨⟨_, rfl⟩, ⟨_, rfl⟩⟩, ⟨⟨_, rfl⟩, ⟨_, rfl⟩⟩⟩

/-- Calls into two classes, one of which is spelled in two ways: from a cart, from the class itself,
from a till in no namespace and from the cart again. -/
def bankCalls : List Edge :=
  [classCall "S" "Cart" "S" "Bank" 3, classCall "s" "BANK" "S" "Bank" 4,
   classCall "" "Till" "P" "bank" 5, classCall "S" "Cart" "P" "bank" 6]

theorem bankCalls_listed :
    ∃ index, Index.ofEdges bankCalls = .ok index ∧ index.Built ∧
      index.hasClass (Text.trim " BANK") = true ∧
      ∃ answer again,
        Service.classReferences ⟨index, .standard⟩ (.text " BANK") (.text "Calls") = .ok answer ∧
        "S.Cart" ∈ answer.references.map ClassReference.name ∧
        "Till" ∈ answer.references.map ClassReference.name ∧
        "s.BANK" ∉ answer.references.map ClassReference.name ∧
        Service.classReferences ⟨index, .standard⟩ (.text "bank\t") .null = .ok again ∧
        again.references = answer.references := by
  obtain ⟨index, made⟩ : ∃ index, Index.ofEdges bankCalls = .ok index := ⟨_, rfl⟩
  have edges : index.edges = bankCalls := by
    obtain rfl := Except.ok.inj made
    rfl
  have known : index.hasClass (Text.trim " BANK") = true := by
    obtain rfl := Except.ok.inj made
    rfl
  have placed : ∀ edge ∈ index.edges, edge.Placed := by
    rw [edges]
    intro edge listed
    simp only [bankCalls, List.mem_cons, List.not_mem_nil, or_false] at listed
    rcases listed with rfl | rfl | rfl | rfl <;> exact placed_classCall _ _ _ _ _
  have built : index.Built := .of_ofEdges made
  obtain ⟨listing, spellings⟩ := class_references_listed ⟨index, .standard⟩ built placed
  have calls : ClassReference.PassesCalls (.text "Calls") := Or.inr ⟨_, rfl, by decide⟩
  obtain ⟨answer, answered, -, lists⟩ := listing " BANK" _ known calls
  obtain ⟨-, same⟩ := spellings " BANK" "bank\t" (by decide)
  obtain ⟨again, answeredToo, alike⟩ := same _ .null answer calls (Or.inl rfl) answered
  have named := lists.named
  rw [edges] at named
  refine ⟨index, made, built, known, answer, again, answered, ?_, ?_, ?_, answeredToo, alike⟩
  · rw [named]
    decide
  · rw [named]
    decide
  · rw [named]
    decide

/-- **A padded name is not known to the index**, although it has the trimmed form of a known one. -/
theorem padded_class_unknown :
    ∃ index, Index.ofEdges [payment 3] = .ok index ∧
      Text.lower (Text.trim " Bank") = Text.lower (Text.trim "Bank") ∧
      index.hasClass "Bank" = true ∧ index.hasClass " Bank" = false :=
  ⟨_, rfl, by decide, rfl, rfl⟩

end CallGraph
