import Mathlib.Data.List.Perm.Basic
import Mathlib.Logic.Relation
import TemplateTree.Proofs.Hints
import TemplateTree.Proofs.Json.Exchange

namespace TemplateTree

/-! What a member of an object means depends on where the object stands, so a change of a value
is described together with the part of a template that the value stands for (`Json.Part`). -/

section Lookup

variable {α : Type} {members others : List (String × α)} {name : String} {value : α}

theorem lookup_eq_some_iff_mem (distinct : (members.map Prod.fst).Nodup) :
    members.lookup name = some value ↔ (name, value) ∈ members := by
  rw [List.lookup_eq_some_iff]
  constructor
  · rintro ⟨before, after, rfl, _⟩
    exact List.mem_append_right _ List.mem_cons_self
  · intro member
    obtain ⟨before, after, rfl⟩ := List.append_of_mem member
    refine ⟨before, after, rfl, fun earlier inBefore => bne_iff_ne.mpr fun same => ?_⟩
    rw [List.map_append, List.map_cons, List.nodup_append] at distinct
    exact distinct.2.2 _ (List.mem_map_of_mem inBefore) name List.mem_cons_self same.symm

theorem lookup_eq_of_perm (distinct : (members.map Prod.fst).Nodup)
    (perm : members.Perm others) (name : String) :
    members.lookup name = others.lookup name := by
  have otherDistinct : (others.map Prod.fst).Nodup := (perm.map Prod.fst).nodup_iff.mp distinct
  ext value
  rw [lookup_eq_some_iff_mem distinct, lookup_eq_some_iff_mem otherDistinct, perm.mem_iff]

theorem lookup_eq_none_of_not_mem (absent : name ∉ members.map Prod.fst) :
    members.lookup name = none := by
  rw [List.lookup_eq_none_iff]
  exact fun member inMembers => bne_iff_ne.mpr fun same =>
    absent (same ▸ List.mem_map_of_mem inMembers)

theorem lookup_cons_of_ne {other : String} (different : other ≠ name) (value : α)
    (members : List (String × α)) :
    ((name, value) :: members).lookup other = members.lookup other := by
  rw [List.lookup_cons, beq_eq_false_iff_ne.mpr different]

end Lookup

namespace Kind

def fields : Kind → List String
  | .block => ["name", "children"]
  | .inherits => ["template", "scopes"]
  | .loop => ["variable", "collection", "children"]
  | .set => ["variables", "values", "body"]
  | .autoescape => ["strategy", "children"]
  | .types => ["types"]
  | .text | .whitespace | .parent | .print | .deprecated => []

def optionalFields : Kind → List String
  | .set => ["body"]
  | .autoescape => ["strategy"]
  | _ => []

end Kind

namespace Json

/-- The part of a template that a value stands for. -/
inductive Part where
  | template
  | node
  | content (kind : Kind)
  /-- The hints of a `types` node, each under the name of its variable. -/
  | hints

/-- Members of this name are passed over. -/
def Part.Ignores : Part → String → Prop
  | .template, _ => False
  | .node, name => name ∉ ["type", "value"]
  | .content kind, name => name ∉ kind.fields
  | .hints, _ => False

/-- One change that does not matter.  It is made to the first member of an object, which may be
any member when the object is reordered before. -/
inductive Change : Part → Json → Json → Prop where
  | reorder {part : Part} {members others : List (String × Json)} (isObject : part ≠ .template)
      (distinct : (members.map Prod.fst).Nodup) (perm : members.Perm others) :
      Change part (.object members) (.object others)
  | add {part : Part} {name : String} (ignored : part.Ignores name) (value : Json)
      (members : List (String × Json)) :
      Change part (.object members) (.object ((name, value) :: members))
  | addNull {kind : Kind} {name : String} {members : List (String × Json)}
      (optional : name ∈ kind.optionalFields) (absent : name ∉ members.map Prod.fst) :
      Change (.content kind) (.object members) (.object ((name, .null) :: members))
  | addNullContent {members : List (String × Json)}
      (isParent : Kind.ofMembers? members = some .parent)
      (absent : "value" ∉ members.map Prod.fst) :
      Change .node (.object members) (.object (("value", .null) :: members))
  | inTemplate {old new : Json} (inner : Change .node old new) (before after : List Json) :
      Change .template (.array (before ++ old :: after)) (.array (before ++ new :: after))
  | inNode {kind : Kind} {old new : Json} {members : List (String × Json)}
      (isKind : Kind.ofMembers? members = some kind) (inner : Change (.content kind) old new) :
      Change .node (.object (("value", old) :: members)) (.object (("value", new) :: members))
  | inContent {kind : Kind} {scope : Scope} {old new : Json} (isScope : kind.scope? = some scope)
      (inner : Change .template old new) (members : List (String × Json)) :
      Change (.content kind) (.object ((scope.childrenName, old) :: members))
        (.object ((scope.childrenName, new) :: members))
  | inTypes {old new : Json} (inner : Change .hints old new) (members : List (String × Json)) :
      Change (.content .types) (.object (("types", old) :: members))
        (.object (("types", new) :: members))

/-- Any number of changes, made or undone. -/
def Rearranged : Json → Json → Prop := Relation.EqvGen (Change .template)

def hints? : Json → Option TypeHints
  | .object members => (entries? members).map .ofList
  | _ => none

theorem entries?_eq_some_iff {members : List (String × Json)}
    {entries : List (String × String)} :
    entries? members = some entries ↔
      members = entries.map fun (key, value) => (key, .string value) := by
  constructor
  · intro read
    induction members generalizing entries with
    | nil =>
        cases read
        rfl
    | cons member rest ih =>
        obtain ⟨key, value⟩ := member
        cases value with
        | string value =>
            cases later : entries? rest with
            | none =>
                rw [entries?] at later
                simp [entries?, List.mapM_cons, later] at read
            | some others =>
                have isRest := ih later
                rw [entries?] at later
                obtain rfl : (key, value) :: others = entries := by
                  simpa [entries?, List.mapM_cons, later] using read
                rw [isRest, List.map_cons]
        | _ => simp [entries?, List.mapM_cons] at read
  · rintro rfl
    exact entries?_map entries

end Json

theorem TypeHints.ofList_eq_of_perm {entries others : List (String × String)}
    (distinct : (entries.map Prod.fst).Nodup) (perm : entries.Perm others) :
    ofList entries = ofList others := by
  apply eq_of_find?
  intro key
  have reversed : entries.reverse.Perm others.reverse :=
    (List.reverse_perm entries).trans (perm.trans (List.reverse_perm others).symm)
  rw [find?_ofList, find?_ofList, lookup_eq_of_perm _ reversed]
  rwa [List.map_reverse, List.nodup_reverse]

namespace Json

theorem exists_entries_of_perm {entries : List (String × String)}
    {others : List (String × Json)}
    (perm : others.Perm (entries.map fun (key, value) => (key, .string value))) :
    ∃ reordered, entries? others = some reordered := by
  have strings : ∀ member ∈ others, ∃ key value, member = (key, Json.string value) := by
    intro member inOthers
    obtain ⟨⟨key, value⟩, _, rfl⟩ := List.mem_map.mp (perm.mem_iff.mp inOthers)
    exact ⟨key, value, rfl⟩
  -- The induction needs only that the values are strings, not in which order they stand.
  clear perm
  induction others with
  | nil => exact ⟨[], rfl⟩
  | cons member rest ih =>
      obtain ⟨key, value, rfl⟩ := strings member List.mem_cons_self
      obtain ⟨reordered, isRest⟩ :=
        ih fun later inRest => strings later (List.mem_cons_of_mem _ inRest)
      rw [entries?] at isRest
      refine ⟨(key, value) :: reordered, ?_⟩
      rw [entries?, List.mapM_cons, isRest]
      rfl

theorem hints?_eq_some_of_perm {members others : List (String × Json)}
    (distinct : (members.map Prod.fst).Nodup) (perm : members.Perm others) {hints : TypeHints}
    (read : hints? (.object members) = some hints) : hints? (.object others) = some hints := by
  obtain ⟨entries, found, rfl⟩ := Option.map_eq_some_iff.mp read
  obtain rfl := entries?_eq_some_iff.mp found
  obtain ⟨reordered, foundOther⟩ := exists_entries_of_perm perm.symm
  obtain rfl := entries?_eq_some_iff.mp foundOther
  have injective : Function.Injective
      fun entry : String × String => (entry.1, Json.string entry.2) := by
    rintro ⟨key, value⟩ ⟨otherKey, otherValue⟩ same
    cases same
    rfl
  have sameEntries : entries.Perm reordered := (List.map_perm_map_iff injective).mp perm
  have distinctEntries : (entries.map Prod.fst).Nodup := by
    rwa [List.map_map] at distinct
  rw [hints?, entries?_map, Option.map_some,
    TypeHints.ofList_eq_of_perm distinctEntries sameEntries]

theorem hints?_eq_of_perm {members others : List (String × Json)}
    (distinct : (members.map Prod.fst).Nodup) (perm : members.Perm others) :
    hints? (.object members) = hints? (.object others) := by
  have otherDistinct : (others.map Prod.fst).Nodup := (perm.map Prod.fst).nodup_iff.mp distinct
  ext hints
  exact ⟨hints?_eq_some_of_perm distinct perm, hints?_eq_some_of_perm otherDistinct perm.symm⟩

end Json

theorem Leaf.ofPayload?_types (members : List (String × Json)) :
    Leaf.ofPayload? .types (some (.object members)) =
      ((members.lookup "types").bind Json.hints?).map .types := by
  rw [Leaf.ofPayload?]
  cases members.lookup "types" with
  | none => rfl
  | some hints =>
      cases hints with
      | object members => simp [Json.hints?, Function.comp_def]
      | _ => rfl

/-- What the children of a scope are read as, where they are an array. -/
def Scope.children? (scope : Scope) (members : List (String × Json)) :
    Option (Option Template) :=
  match members.lookup scope.childrenName with
  | some (.array items) => some (Template.ofJsonItems? items)
  | _ => none

structure Kind.ReadsAlike (kind : Kind) (members others : List (String × Json)) : Prop where
  leaf : Leaf.ofPayload? kind (some (.object members)) =
    Leaf.ofPayload? kind (some (.object others))
  header : ∀ scope ∈ kind.scope?,
    Header.ofMembers? scope members = Header.ofMembers? scope others
  children : ∀ scope ∈ kind.scope?, scope.children? members = scope.children? others

namespace Kind.ReadsAlike

variable {kind : Kind} {members others : List (String × Json)}

theorem of_lookup (same : ∀ name ∈ kind.fields, members.lookup name = others.lookup name) :
    kind.ReadsAlike members others where
  leaf := by
    cases kind with
    | inherits | set | types =>
        simp only [fields, List.forall_mem_cons] at same
        simp only [Leaf.ofPayload?, Leaf.assignment?, same]
    | _ => rfl
  header := by
    intro scope isScope
    cases kind with
    | block | loop | set | autoescape =>
        cases isScope
        simp only [fields, List.forall_mem_cons] at same
        simp only [Header.ofMembers?, same]
    | _ => cases isScope
  children := by
    intro scope isScope
    cases kind with
    | block | loop | set | autoescape =>
        cases isScope
        simp only [fields, List.forall_mem_cons] at same
        simp only [Scope.children?, Scope.childrenName, same]
    | _ => cases isScope

theorem addNullBody (absent : members.lookup "body" = none) :
    Kind.set.ReadsAlike members (("body", .null) :: members) where
  leaf := by
    have sameAssignment :
        Leaf.assignment? (("body", .null) :: members) = Leaf.assignment? members := rfl
    simp only [Leaf.ofPayload?, absent, List.lookup_cons_self, sameAssignment]
  header := by
    rintro scope ⟨⟩
    rfl
  children := by
    rintro scope ⟨⟩
    simp only [Scope.children?, Scope.childrenName, absent, List.lookup_cons_self]

theorem addNullStrategy (absent : members.lookup "strategy" = none) :
    Kind.autoescape.ReadsAlike members (("strategy", .null) :: members) where
  leaf := rfl
  header := by
    rintro scope ⟨⟩
    simp only [Header.ofMembers?, absent, List.lookup_cons_self]
  children := by
    rintro scope ⟨⟩
    rfl

theorem addNull {name : String} (optional : name ∈ kind.optionalFields)
    (absent : name ∉ members.map Prod.fst) :
    kind.ReadsAlike members ((name, .null) :: members) := by
  have isAbsent : members.lookup name = none := lookup_eq_none_of_not_mem absent
  cases kind with
  | set =>
      obtain rfl : name = "body" := List.mem_singleton.mp optional
      exact addNullBody isAbsent
  | autoescape =>
      obtain rfl : name = "strategy" := List.mem_singleton.mp optional
      exact addNullStrategy isAbsent
  | _ => exact absurd optional List.not_mem_nil

/-- A `set` is no assignment when its body is an array, whatever is in it. -/
theorem ofChildren {scope : Scope} {items others : List Json} (isScope : kind.scope? = some scope)
    (same : Template.ofJsonItems? items = Template.ofJsonItems? others)
    (members : List (String × Json)) :
    kind.ReadsAlike ((scope.childrenName, .array items) :: members)
      ((scope.childrenName, .array others) :: members) where
  leaf := by
    cases kind with
    | block | loop | set | autoescape =>
        cases isScope
        rfl
    | _ => cases isScope
  header := by
    rintro opened isOpened
    obtain rfl : scope = opened := Option.some.inj (isScope.symm.trans isOpened)
    cases scope <;> rfl
  children := by
    rintro opened isOpened
    obtain rfl : scope = opened := Option.some.inj (isScope.symm.trans isOpened)
    simp only [Scope.children?, List.lookup_cons_self, same]

theorem ofTypes {old new : Json} (same : Json.hints? old = Json.hints? new)
    (members : List (String × Json)) :
    Kind.types.ReadsAlike (("types", old) :: members) (("types", new) :: members) where
  leaf := by
    rw [Leaf.ofPayload?_types, Leaf.ofPayload?_types, List.lookup_cons_self,
      List.lookup_cons_self, Option.bind_some, Option.bind_some, same]
  header := by
    rintro scope ⟨⟩
  children := by
    rintro scope ⟨⟩

end Kind.ReadsAlike

theorem Scope.children?_payloadMembers (scope : Scope) (members : List (String × Json)) :
    scope.children? (Json.payloadMembers members) =
      (Json.childItems? scope members).map Template.ofJsonItems? := by
  rw [Scope.children?, Json.childItems?]
  cases (Json.payloadMembers members).lookup scope.childrenName with
  | none => rfl
  | some value => cases value <;> rfl

namespace Node

variable {members others : List (String × Json)} {kind : Kind}

theorem ofJson?_congr (isKind : Kind.ofMembers? members = some kind)
    (otherKind : Kind.ofMembers? others = some kind)
    (sameLeaf : Leaf.ofPayload? kind (members.lookup "value") =
      Leaf.ofPayload? kind (others.lookup "value"))
    (sameHeader : ∀ scope ∈ kind.scope?, Header.ofMembers? scope (Json.payloadMembers members) =
      Header.ofMembers? scope (Json.payloadMembers others))
    (sameChildren : ∀ scope ∈ kind.scope?, scope.children? (Json.payloadMembers members) =
      scope.children? (Json.payloadMembers others)) :
    Node.ofJson? (.object members) = Node.ofJson? (.object others) := by
  simp only [Scope.children?_payloadMembers] at sameChildren
  by_cases childless : ∀ scope ∈ kind.scope?, Json.childItems? scope members = none
  · have otherChildless : ∀ scope ∈ kind.scope?, Json.childItems? scope others = none := by
      intro scope isScope
      have same := sameChildren scope isScope
      rwa [childless scope isScope, Option.map_none, eq_comm, Option.map_eq_none_iff] at same
    rw [ofJson?_of_leaf isKind childless, ofJson?_of_leaf otherKind otherChildless, sameLeaf]
  · push Not at childless
    obtain ⟨scope, isScope, notNone⟩ := childless
    obtain ⟨items, found⟩ := Option.ne_none_iff_exists'.mp notNone
    have same := sameChildren scope isScope
    rw [found, Option.map_some, eq_comm, Option.map_eq_some_iff] at same
    obtain ⟨otherItems, foundOther, sameItems⟩ := same
    rw [ofJson?_of_scope isKind isScope found, ofJson?_of_scope otherKind isScope foundOther,
      sameHeader scope isScope, sameItems]

theorem ofJson?_eq_none (noKind : Kind.ofMembers? members = none) :
    Node.ofJson? (.object members) = none := by
  rw [Node.ofJson?, noKind]
  rfl

theorem ofJson?_eq_of_lookup
    (same : ∀ name ∈ ["type", "value"], members.lookup name = others.lookup name) :
    Node.ofJson? (.object members) = Node.ofJson? (.object others) := by
  simp only [List.forall_mem_cons] at same
  obtain ⟨sameType, sameValue, -⟩ := same
  have sameKind : Kind.ofMembers? members = Kind.ofMembers? others := by
    rw [Kind.ofMembers?, Kind.ofMembers?, sameType]
  have samePayload : Json.payloadMembers members = Json.payloadMembers others := by
    rw [Json.payloadMembers, Json.payloadMembers, sameValue]
  cases isKind : Kind.ofMembers? others with
  | none => rw [ofJson?_eq_none isKind, ofJson?_eq_none (sameKind.trans isKind)]
  | some kind =>
      exact ofJson?_congr (sameKind.trans isKind) isKind (by rw [sameValue])
        (fun scope _ => by rw [samePayload]) (fun scope _ => by rw [samePayload])

theorem ofJson?_addNull (isParent : Kind.ofMembers? members = some .parent)
    (absent : "value" ∉ members.map Prod.fst) :
    Node.ofJson? (.object members) = Node.ofJson? (.object (("value", .null) :: members)) := by
  have isAbsent : members.lookup "value" = none := lookup_eq_none_of_not_mem absent
  have isParentToo : Kind.ofMembers? (("value", .null) :: members) = some .parent := isParent
  refine ofJson?_congr isParent isParentToo ?_ (by rintro scope ⟨⟩) (by rintro scope ⟨⟩)
  rw [isAbsent, List.lookup_cons_self]
  rfl

theorem ofJson?_congr_content {content otherContent : List (String × Json)}
    (isKind : Kind.ofMembers? members = some kind) (alike : kind.ReadsAlike content otherContent) :
    Node.ofJson? (.object (("value", .object content) :: members)) =
      Node.ofJson? (.object (("value", .object otherContent) :: members)) :=
  ofJson?_congr isKind isKind alike.leaf alike.header alike.children

end Node

theorem Template.ofJsonItems?_congr {old new : Json} (same : Node.ofJson? old = Node.ofJson? new)
    (before after : List Json) :
    ofJsonItems? (before ++ old :: after) = ofJsonItems? (before ++ new :: after) := by
  induction before with
  | nil => rw [List.nil_append, List.nil_append, ofJsonItems?, ofJsonItems?, same]
  | cons item rest ih =>
      rw [List.cons_append, List.cons_append, ofJsonItems?, ofJsonItems?, ih]

namespace Json

/-- The values are read alike where they stand for the part. -/
def Agree : Part → Json → Json → Prop
  | .template, old, new => ∃ items others, old = .array items ∧ new = .array others ∧
      Template.ofJsonItems? items = Template.ofJsonItems? others
  | .node, old, new => Node.ofJson? old = Node.ofJson? new
  | .content kind, old, new => ∃ members others, old = .object members ∧ new = .object others ∧
      kind.ReadsAlike members others
  | .hints, old, new => hints? old = hints? new

variable {part : Part} {members others : List (String × Json)} {json other old new : Json}

theorem Agree.reorder (isObject : part ≠ .template) (distinct : (members.map Prod.fst).Nodup)
    (perm : members.Perm others) : Agree part (.object members) (.object others) := by
  have same := lookup_eq_of_perm distinct perm
  cases part with
  | template => exact absurd rfl isObject
  | node => exact Node.ofJson?_eq_of_lookup fun name _ => same name
  | content kind =>
      exact ⟨members, others, rfl, rfl, .of_lookup fun name _ => same name⟩
  | hints => exact hints?_eq_of_perm distinct perm

theorem Agree.add {name : String} (ignored : part.Ignores name) (value : Json)
    (members : List (String × Json)) :
    Agree part (.object members) (.object ((name, value) :: members)) := by
  cases part with
  | template => exact ignored.elim
  | node =>
      exact Node.ofJson?_eq_of_lookup fun other isRead =>
        (lookup_cons_of_ne (ne_of_mem_of_not_mem isRead ignored) value members).symm
  | content kind =>
      exact ⟨members, _, rfl, rfl, .of_lookup fun other isRead =>
        (lookup_cons_of_ne (ne_of_mem_of_not_mem isRead ignored) value members).symm⟩
  | hints => exact ignored.elim

theorem Change.agree (change : Change part old new) : Agree part old new := by
  induction change with
  | reorder isObject distinct perm => exact Agree.reorder isObject distinct perm
  | add ignored value members => exact Agree.add ignored value members
  | addNull optional absent => exact ⟨_, _, rfl, rfl, .addNull optional absent⟩
  | addNullContent isParent absent => exact Node.ofJson?_addNull isParent absent
  | inTemplate _ before after sameNode =>
      exact ⟨_, _, rfl, rfl, Template.ofJsonItems?_congr sameNode before after⟩
  | inNode isKind _ sameContent =>
      obtain ⟨content, otherContent, rfl, rfl, alike⟩ := sameContent
      exact Node.ofJson?_congr_content isKind alike
  | inContent isScope _ members sameTemplate =>
      obtain ⟨items, others, rfl, rfl, sameItems⟩ := sameTemplate
      exact ⟨_, _, rfl, rfl, .ofChildren isScope sameItems members⟩
  | inTypes _ members sameHints => exact ⟨_, _, rfl, rfl, .ofTypes sameHints members⟩

end Json

/-- What a template is imported as does not depend on how its JSON is laid out. -/
theorem Template.ofJson?_eq_of_rearranged {json other : Json}
    (rearranged : Json.Rearranged json other) : ofJson? json = ofJson? other := by
  induction rearranged with
  | rel old new change =>
      obtain ⟨items, others, rfl, rfl, same⟩ := change.agree
      exact same
  | refl json => rfl
  | symm old new _ same => exact same.symm
  | trans first second third _ _ sameFirst sameSecond => exact sameFirst.trans sameSecond

/-- A member nothing reads, the content before the kind, no strategy, and null for the content of
the parent call. -/
theorem Template.ofJson?_autoescape_rearranged :
    ofJson? (.array [.object [("note", .bool true),
      ("value", .object [("children",
        .array [.object [("value", .null), ("type", .string "parent")]])]),
      ("type", .string "autoescape")]]) = some [.scope (.autoescape none) [.leaf .parent]] := by
  have isKind : Kind.ofMembers? [("type", .string "autoescape")] = some .autoescape :=
    Kind.ofMembers?_cons .autoescape []
  have addNote (members : List (String × Json)) :
      Json.Change .node (.object members) (.object (("note", .bool true) :: members)) :=
    .add (by simp [Json.Part.Ignores]) (.bool true) members
  have addNull : Json.Change (.content .autoescape)
      (.object [("children", .array [.object [("type", .string "parent")]])])
      (.object [("children", .array [.object [("value", .null), ("type", .string "parent")]])]) :=
    .inContent (Scope.scope?_kind .autoescape) (.inTemplate
      (.addNullContent (Kind.ofMembers?_cons .parent []) (by simp)) [] []) []
  have addStrategy (children : Json) : Json.Change (.content .autoescape)
      (.object [("children", children)])
      (.object [("strategy", .null), ("children", children)]) :=
    .addNull (by simp [Kind.optionalFields]) (by simp)
  have kindFirst (content : Json) : Json.Change .node
      (.object [("value", content), ("type", .string "autoescape")])
      (.object [("type", .string "autoescape"), ("value", content)]) :=
    .reorder (by simp) (by simp) (.swap _ _ [])
  have change {old new : Json} (inner : Json.Change .node old new) :
      Json.Rearranged (.array [old]) (.array [new]) :=
    .rel _ _ (.inTemplate inner [] [])
  exact (ofJson?_eq_of_rearranged (.trans _ _ _ (.symm _ _ (change (addNote _)))
    (.trans _ _ _ (.symm _ _ (change (.inNode isKind addNull)))
      (.trans _ _ _ (change (.inNode isKind (addStrategy _))) (change (kindFirst _)))))).trans
    (ofJsonItems?_toJsonItems [.scope (.autoescape none) [.leaf .parent]])

end TemplateTree
