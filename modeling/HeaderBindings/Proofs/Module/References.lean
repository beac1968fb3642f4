import HeaderBindings.Proofs.Module.Classes
import HeaderBindings.Proofs.Text.Words
import HeaderBindings.Proofs.Types.Derivation

/-!
# The classes that fields of structs refer to

The descriptors of a struct's fields are evaluated when the module is loaded, so a class that one of
them names has to be declared further up.  `Sources.FieldsDefined` says that this is so for the
classes of all declared types.

* `exists_nodes_split`: in front of the structs there are the constants and the enumerations, and
  behind them there are no fields any more.
* `declaresName_iff`: so what is declared in front of a struct are the constants, the enumerations
  and the structs before it, but for the ones that are written by hand.
* `exists_reaches_of_mem`: a descriptor only names the classes of types that lie behind its type.
* `fieldsDefined_module`: that settles which fields may name what.  In headers in which every struct
  is declared before it is used by value, fields have their classes unless they refer to a handle, a
  callback, or by a pointer to the struct itself or to a later one.

The sections of a module have a fixed order, and the structs keep theirs.  So `hook_undefined` is a
field whose descriptor names a class that comes later, in headers that are in order.
-/

set_option autoImplicit false

namespace HeaderBindings

/-! ## Places in a list -/

/-- An element that is only in the middle of three lists splits the middle one. -/
theorem exists_split_of_append_eq {α : Type} {l₁ l₂ l₃ before after : List α} {x : α}
    (h : l₁ ++ l₂ ++ l₃ = before ++ x :: after) (h₁ : x ∉ l₁) (h₃ : x ∉ l₃) :
    ∃ front back, l₂ = front ++ x :: back ∧ before = l₁ ++ front := by
  have hcons {a b c : List α} (h : x :: a = b ++ c) (hb : x ∉ b) : b = [] := by
    cases b with
    | nil => rfl
    | cons y b => exact absurd ((List.cons.inj h).1 ▸ List.mem_cons_self) hb
  rw [List.append_assoc] at h
  obtain ⟨front, rfl, hrest⟩ : ∃ front, before = l₁ ++ front ∧ l₂ ++ l₃ = front ++ x :: after := by
    rcases List.append_eq_append_iff.1 h with ⟨front, hfront, hrest⟩ | ⟨last, rfl, hrest⟩
    · exact ⟨front, hfront, hrest⟩
    · obtain rfl := hcons hrest fun hx ↦ h₁ (List.mem_append_right _ hx)
      exact ⟨[], by simp, hrest.symm⟩
  rcases List.append_eq_append_iff.1 hrest with ⟨last, -, rfl⟩ | ⟨back, rfl, hback⟩
  · exact absurd (List.mem_append_right _ List.mem_cons_self) h₃
  · cases back with
    | nil => exact absurd (hback ▸ List.mem_cons_self : x ∈ [] ++ l₃) h₃
    | cons y back =>
      obtain rfl := (List.cons.inj hback).1
      exact ⟨front, back, rfl, rfl⟩

/-- What holds at every place of a list is checked from the front. -/
theorem forall_split_nil {α : Type} {p : List α → α → Prop} :
    ∀ front t back, [] = front ++ t :: back → p front t :=
  fun _ _ _ h ↦ absurd h (by simp)

theorem forall_split_cons {α : Type} {a : α} {l : List α} {p : List α → α → Prop} (ha : p [] a)
    (hl : ∀ front t back, l = front ++ t :: back → p (a :: front) t) :
    ∀ front t back, a :: l = front ++ t :: back → p front t := by
  rintro (_ | ⟨x, front⟩) t back h
  · exact (List.cons.inj h).1 ▸ ha
  · exact (List.cons.inj h).1 ▸ hl front t back (List.cons.inj h).2

/-! ## Names in descriptors -/

/-- The names that are looked up when a descriptor is evaluated.  What follows a dot is an attribute
and not looked up on its own. -/
def evaluatedNames (descriptor : Text) : List Text :=
  ((descriptor.splitWhere fun c ↦ !(isWordChar c || c == '.')).map
    fun t ↦ t.takeWhile (· != '.')).filter fun name ↦ !name.isEmpty

theorem evaluatedNames_of_isIdentifier {w : Text} (h : isIdentifier w = true) :
    evaluatedNames w = [w] := by
  have hword := isWordChar_of_mem h
  have hdot : w.takeWhile (· != '.') = w := by
    rw [← List.append_nil w, List.takeWhile_append_of_pos, List.takeWhile_nil]
    intro c hc
    rw [bne_iff_ne]
    rintro rfl
    exact absurd (hword _ hc) (by decide)
  have hne : w ≠ [] := by
    rintro rfl
    exact absurd h (by decide)
  rw [evaluatedNames, Text.splitWhere_of_forall fun c hc ↦ by simp [hword c hc], List.map_singleton,
    hdot]
  simp [hne]

/-- A pointer is made with the library for foreign types. -/
theorem evaluatedNames_pointerTo (descriptor : Text) :
    evaluatedNames (pointerTo descriptor) =
      ("ctypes" : Text) :: evaluatedNames descriptor := by
  have hparts : pointerTo descriptor =
      "ctypes.POINTER".toList ++ '(' :: (descriptor ++ ')' :: []) := rfl
  rw [evaluatedNames, hparts, Text.splitWhere_append_cons (by decide),
    Text.splitWhere_append_cons (by decide), List.map_append, List.map_append, List.filter_append,
    List.filter_append]
  exact congrArg (("ctypes" : Text) :: ·) (List.append_nil _)

/-- The names in the descriptors of basic types. -/
def builtInNames : List Text := ["ctypes", "ListPOINTER", "None"]

theorem mem_builtInNames :
    ∀ entry ∈ basicTypes, ∀ name ∈ evaluatedNames entry.2, name ∈ builtInNames := by
  decide +kernel

/-! ## What types refer to -/

namespace Declarations

/-- The first type is a type name for the second one. -/
def Renames (d : Declarations) (t o : Text) : Prop := t ∉ d.declaredTypes ∧ d.aliases[t]? = some o

/-- The first type is a pointer that takes its descriptor from the second one: from a struct or a
type name. -/
def PointsTo (d : Declarations) (t o : Text) : Prop :=
  t = o ++ ['*'] ∧ (o ∈ d.structs.map (·.name) ∨ o ∈ d.aliases ∧ o ∉ d.declaredTypes)

/-- The first type is the second one or a type name that stands for it. -/
def StandsFor (d : Declarations) : Text → Text → Prop := Relation.ReflTransGen d.Renames

/-- The second type lies behind the first one, which stands for it or for a pointer to it. -/
def Reaches (d : Declarations) : Text → Text → Prop :=
  Relation.ReflTransGen fun t o ↦ d.Renames t o ∨ d.PointsTo t o

theorem not_renames {d : Declarations} (hnames : d.aliases.toList = []) {t o : Text} :
    ¬d.Renames t o := by
  rintro ⟨-, ho⟩
  have hentry := Std.TreeMap.mem_toList_iff_getElem?_eq_some.2 ho
  exact absurd (hnames ▸ hentry) List.not_mem_nil

/-- Without type names each type only stands for itself. -/
theorem StandsFor.eq {d : Declarations} (hnames : d.aliases.toList = []) {t u : Text}
    (h : d.StandsFor t u) : u = t := by
  rcases h.cases_head with rfl | ⟨o, ho, -⟩
  · rfl
  · exact absurd ho (not_renames hnames)

/-- Without type names only pointers to a type refer to it. -/
theorem Reaches.dropTail_eq {d : Declarations} (hnames : d.aliases.toList = []) {t u : Text}
    (h : d.Reaches t u) : t.dropTail (· == '*') = u.dropTail (· == '*') := by
  induction h with
  | refl => rfl
  | tail _ hstep ih =>
    rcases hstep with ho | ⟨rfl, -⟩
    · exact absurd ho (not_renames hnames)
    · rw [ih, Text.dropTail, Text.dropTail, List.reverse_append]
      rfl

/-- Each struct that another one has a field of, by value, is declared in front of it. -/
def InValueOrder (d : Declarations) : Prop :=
  ∀ front t back, d.structs = front ++ t :: back → ∀ f ∈ t.fields, ∀ u ∈ d.structs,
    d.StandsFor f.type u.name → u.name ∈ front.map (·.name)

/-- Fields only refer to enumerations, to structs by value and to structs in front. -/
def RefersBack (d : Declarations) : Prop :=
  ∀ front t back, d.structs = front ++ t :: back → ∀ f ∈ t.fields, ∀ u ∈ d.declaredTypes,
    d.Reaches f.type u → u ∈ d.enums.map (·.name) ∨
      (u ∈ d.structs.map (·.name) ∧ d.StandsFor f.type u) ∨ u ∈ front.map (·.name)

end Declarations

namespace Descriptors

variable {conventions : Conventions} {configured : Table} {d : Declarations} {t e : Text}

/-- Behind the descriptor of a type there is a given one, of a type that lies behind it. -/
def ComesFrom (conventions : Conventions) (configured : Table) (d : Declarations) (t e : Text) :
    Prop :=
  ∃ o e', d.Reaches t o ∧ given? conventions configured d o = some e' ∧
    ∀ name ∈ evaluatedNames e, name = "ctypes" ∨ name ∈ evaluatedNames e'

theorem ComesFrom.given (h : given? conventions configured d t = some e) :
    ComesFrom conventions configured d t e :=
  ⟨t, e, .refl, h, fun _ hname ↦ .inr hname⟩

/-- A type that is declared under its own name has a given descriptor. -/
theorem notMem_declaredTypes (h : given? conventions configured d t = none) :
    t ∉ d.declaredTypes := by
  intro ht
  obtain ⟨e, he⟩ := @isSome_given?_of_mem conventions configured d t ht
  exact absurd (he.symm.trans h) (by simp)

theorem ComesFrom.renames {o : Text} (h : d.Renames t o)
    (ho : ComesFrom conventions configured d o e) : ComesFrom conventions configured d t e := by
  obtain ⟨o', e', hreaches, hgiven, hnames⟩ := ho
  exact ⟨o', e', .head (.inl h) hreaches, hgiven, hnames⟩

theorem ComesFrom.pointsTo {a : Text} (h : d.PointsTo t a)
    (ha : ComesFrom conventions configured d a e) :
    ComesFrom conventions configured d t (pointerTo e) := by
  obtain ⟨o, e', hreaches, hgiven, hnames⟩ := ha
  refine ⟨o, e', .head (.inr h) hreaches, hgiven, fun name hname ↦ ?_⟩
  rw [evaluatedNames_pointerTo] at hname
  exact (List.mem_cons.1 hname).elim .inl (hnames name)

/-- What a type is followed to comes from a given descriptor. -/
theorem ComesFrom.of_followsTo
    (h : FollowsTo (given? conventions configured d) d.aliases t e) :
    ComesFrom conventions configured d t e := by
  induction h with
  | given ht => exact .given ht
  | original ht ho _ ih => exact .renames ⟨notMem_declaredTypes ht, ho⟩ ih
  | pointee ht hname ha hgiven _ ih =>
    exact .pointsTo ⟨rfl, .inr ⟨ha, notMem_declaredTypes hgiven⟩⟩ ih

/-- **Every descriptor comes from a given one**, by one rule after the other. -/
theorem comesFrom_of_rules {look : Text → Option Text} {t e : Text}
    (h : Rules (given? conventions configured d) d.aliases (d.structs.map (·.name)) look)
    (hlook : look t = some e) : ComesFrom conventions configured d t e := by
  rcases h.cases hlook with ht | ⟨-, ⟨-, hfollows⟩ | ⟨-, a, e', hta, hkind, he', rfl⟩⟩
  · exact .given ht
  · exact .of_followsTo hfollows
  · have hless : a.length < t.length := by simp [hta]
    refine .pointsTo ⟨hta, ?_⟩ (comesFrom_of_rules h he')
    rcases hkind with ⟨hgiven, ha⟩ | ha
    · exact .inr ⟨ha, notMem_declaredTypes hgiven⟩
    · exact .inl ha
termination_by t.length

end Descriptors

open Descriptors in
/-- **A descriptor only names what the types behind its own type have in their descriptors**, apart
from the library for foreign types. -/
theorem TypeTable.exists_reaches_of_mem {conventions : Conventions} {configured : Table}
    {d : Declarations} (hplain : d.PlainAliases) {t name : Text}
    (h : name ∈ evaluatedNames ((build conventions configured d).descriptor t)) :
    name = "ctypes" ∨ ∃ o e, d.Reaches t o ∧ given? conventions configured d o = some e ∧
      name ∈ evaluatedNames e := by
  rw [descriptor] at h
  cases hlook : (build conventions configured d).resolve? t with
  | none =>
    rw [hlook] at h
    exact .inl (List.mem_singleton.1 h)
  | some e =>
    rw [hlook] at h
    obtain ⟨o, e', hreaches, hgiven, hnames⟩ := comesFrom_of_rules (rules_build hplain) hlook
    exact (hnames name h).imp_right fun hname ↦ ⟨o, e', hreaches, hgiven, hname⟩

/-! ## Declaring a class -/

/-- The node declares a class of the given name. -/
def Node.DeclaresName (cls : Text) : Node → Prop
  | .constants name _ _ | .enum name _ _ | .struct name _ _ | .handle name _
  | .wrapper name _ _ _ _ => name = cls
  | _ => False

/-- The fields of a struct, each with its descriptor. -/
def Node.fields : Node → List (Text × Text)
  | .struct _ _ fields => fields
  | _ => []

namespace Sources

variable {s : Sources} {prologue epilogue : Option Text} {nodes : List Node} {cls : Text}

/-- Each class of a declared type that a field's descriptor names is declared in front of the
struct. -/
def FieldsDefined (s : Sources) (nodes : List Node) : Prop :=
  ∀ before node after, nodes = before ++ node :: after → ∀ field ∈ node.fields,
    ∀ u ∈ s.declarations.declaredTypes, s.types.classOf u ∈ evaluatedNames field.2 →
      ∃ earlier ∈ before, earlier.DeclaresName (s.types.classOf u)

/-- The class is that of a group of constants, of an enumeration, or of one of the given structs
that is not written by hand. -/
def DeclaredBehind (s : Sources) (front : List Struct) (cls : Text) : Prop :=
  (∃ node ∈ s.constantGroups, node.DeclaresName cls) ∨
    (∃ e ∈ s.declarations.enums, s.types.classOf e.name = cls) ∨
      ∃ t ∈ front, s.types.classOf t.name = cls ∧ cls ∉ s.overrides

/-! ## The place of the structs -/

/-- Of the two sections that declare classes, that for enumerations is in front of that for
structs. -/
theorem exists_parts_split (s : Sources) (prologue : Option Text) :
    ∃ front back : List (Text ⊕ PrologueMark),
      s.opening prologue = front.flatMap s.partNodes ++ s.structs ++ back.flatMap s.partNodes ∧
        (.inr .enums ∈ front ∧ .inr .structs ∉ front) ∧ .inr .enums ∉ back ∧
          .inr .structs ∉ back := by
  obtain ⟨parts, hparts, hperm, hsub⟩ := exists_parts prologue
  have hmem (mark : PrologueMark) (l : List (Text ⊕ PrologueMark)) :
      .inr mark ∈ l ↔ mark ∈ l.filterMap Sum.getRight? := by
    simp [List.mem_filterMap]
  obtain ⟨front, back, rfl⟩ := List.append_of_mem
    ((hmem .structs parts).2 (hperm.mem_iff.2 (by decide)))
  have hmark : Sum.getRight? (.inr .structs : Text ⊕ PrologueMark) = some .structs := rfl
  rw [List.filterMap_append, List.filterMap_cons_some hmark] at hperm hsub
  obtain ⟨-, hnodup, hapart⟩ := List.nodup_append.1 (hperm.nodup_iff.2 (by decide))
  have hback := (List.nodup_cons.1 hnodup).1
  -- The two sections stand in this order, and no other section for structs is there.
  have henums : .enums ∈ front.filterMap Sum.getRight? := by
    obtain ⟨l₁, l₂, heq, hl₁, hl₂⟩ := List.sublist_append_iff.1 hsub
    cases l₁ with
    | nil =>
      obtain rfl : _ = l₂ := heq
      rcases List.sublist_cons_iff.1 hl₂ with hl₂ | ⟨r, heq, -⟩
      · exact absurd (hl₂.subset (by simp)) hback
      · exact absurd (List.cons.inj heq).1 (by decide)
    | cons x l₁ =>
      obtain rfl := (List.cons.inj heq).1
      exact hl₁.subset List.mem_cons_self
  refine ⟨front, back, ?_, ⟨(hmem _ _).2 henums, fun h ↦ ?_⟩, fun h ↦ ?_, fun h ↦ ?_⟩
  · rw [hparts, List.flatMap_append, List.flatMap_cons, ← List.append_assoc]
    rfl
  · exact hapart _ ((hmem _ _).1 h) _ List.mem_cons_self rfl
  · exact hapart _ henums _ (List.mem_cons_of_mem _ ((hmem _ _).1 h)) rfl
  · exact hback ((hmem _ _).1 h)

/-- A node of some parts is a text, or of one of the two sections that declare classes. -/
theorem mem_partNodes {parts : List (Text ⊕ PrologueMark)} {node : Node}
    (h : node ∈ parts.flatMap s.partNodes) : (∃ t, node = .verbatim t) ∨
      (.inr .enums ∈ parts ∧ node ∈ s.sectionOf .enums) ∨ .inr .structs ∈ parts := by
  obtain ⟨t | mark, hpart, hnode⟩ := List.mem_flatMap.1 h
  · exact .inl ⟨t, List.mem_singleton.1 hnode⟩
  · cases mark with
    | version => exact .inl ⟨_, List.mem_singleton.1 hnode⟩
    | enums => exact .inr (.inl ⟨hpart, hnode⟩)
    | structs => exact .inr (.inr hpart)

/-- Constants and enumerations stand in front of the section for structs, and text behind it. -/
theorem exists_opening_split (s : Sources) (prologue : Option Text) : ∃ before after,
    s.opening prologue = before ++ s.structs ++ after ∧
      (∀ node ∈ before, (∃ t, node = .verbatim t) ∨ node ∈ s.sectionOf .enums) ∧
      (∀ node ∈ s.sectionOf .enums, node ∈ before) ∧
      ∀ node ∈ after, ∃ t, node = .verbatim t := by
  obtain ⟨front, back, hopening, ⟨henums, hfront⟩, hbackEnums, hback⟩ :=
    s.exists_parts_split prologue
  refine ⟨_, _, hopening, fun node hnode ↦ ?_, fun node hnode ↦ ?_, fun node hnode ↦ ?_⟩
  · rcases mem_partNodes hnode with htext | ⟨-, hnode⟩ | hstructs
    · exact .inl htext
    · exact .inr hnode
    · exact absurd hstructs hfront
  · exact List.mem_flatMap.2 ⟨_, henums, hnode⟩
  · rcases mem_partNodes hnode with htext | ⟨hpart, -⟩ | hstructs
    · exact htext
    · exact absurd hpart hbackEnums
    · exact absurd hstructs hback

/-- **Structs stand behind constants and enumerations** in a module, and no fields behind them. -/
theorem exists_nodes_split (h : s.module? prologue epilogue = some nodes) : ∃ before after,
    nodes = before ++ s.declarations.structs.filterMap s.structNode? ++ after ∧
      (∀ node ∈ before, (∃ t, node = .verbatim t) ∨ node ∈ s.sectionOf .enums) ∧
      (∀ node ∈ s.sectionOf .enums, node ∈ before) ∧ ∀ node ∈ after, node.fields = [] := by
  obtain ⟨wrappers, hwrappers, rfl⟩ := Option.map_eq_some_iff.1 h
  obtain ⟨before, text, hopening, hbefore, henums, htext⟩ := s.exists_opening_split prologue
  refine ⟨before, s.declarations.handles.filterMap s.handleNode? ++ text ++ wrappers ++
    s.bindings ++ s.callbacks ++ s.unwrapped s.wrappedNames ++
      (epilogue.map Node.verbatim).toList, ?_, hbefore, henums, fun node hnode ↦ ?_⟩
  · rw [hopening, structs]
    simp only [List.append_assoc]
  · simp only [List.mem_append, or_assoc] at hnode
    rcases hnode with hnode | hnode | hnode | hnode | hnode | hnode | hnode
    · obtain ⟨native, -, hnative⟩ := List.mem_filterMap.1 hnode
      obtain ⟨-, rfl⟩ := handleNode?_eq_some_iff.1 hnative
      rfl
    · obtain ⟨t, rfl⟩ := htext node hnode
      rfl
    · obtain ⟨cls, -, hwrapper⟩ := exists_of_mem_mapM hwrappers node hnode
      obtain ⟨methods, -, rfl⟩ := eq_wrapper_of_wrapper? hwrapper
      rfl
    · rcases bindings_cases hnode with ⟨lines, rfl⟩ | ⟨f, -, rfl⟩
      · rfl
      · rfl
    · rcases callbacks_cases hnode with ⟨f, -, rfl⟩ | ⟨types, rfl⟩
      · rfl
      · rfl
    · obtain ⟨lines, rfl⟩ := eq_comment_of_mem_unwrapped hnode
      rfl
    · obtain ⟨t, rfl⟩ := eq_verbatim_of_mem_epilogue hnode
      rfl

/-! ## What is declared in front of a struct -/

/-- **What is declared in front of a struct**, when the given structs come before it. -/
theorem declaresName_iff {before : List Node} {front : List Struct}
    (hbefore : ∀ node ∈ before, (∃ t, node = .verbatim t) ∨ node ∈ s.sectionOf .enums)
    (henums : ∀ node ∈ s.sectionOf .enums, node ∈ before) :
    (∃ node ∈ before ++ front.filterMap s.structNode?, node.DeclaresName cls) ↔
      s.DeclaredBehind front cls := by
  constructor
  · rintro ⟨node, hnode, hdeclares⟩
    rcases List.mem_append.1 hnode with hnode | hnode
    · rcases hbefore node hnode with ⟨t, rfl⟩ | hnode
      · exact hdeclares.elim
      · rcases List.mem_append.1 hnode with hnode | hnode
        · exact .inl ⟨node, hnode, hdeclares⟩
        · rcases enums_cases hnode with rfl | ⟨e, he, rfl⟩
          · exact hdeclares.elim
          · exact .inr (.inl ⟨e, he, hdeclares⟩)
    · obtain ⟨t, ht, hstruct⟩ := List.mem_filterMap.1 hnode
      obtain ⟨hcls, rfl⟩ := structNode?_eq_some_iff.1 hstruct
      obtain rfl : _ = cls := hdeclares
      exact .inr (.inr ⟨t, ht, rfl, hcls⟩)
  · rintro (⟨node, hnode, hdeclares⟩ | ⟨e, he, rfl⟩ | ⟨t, ht, rfl, hcls⟩)
    · exact ⟨node, List.mem_append_left _ (henums node (List.mem_append_left _ hnode)), hdeclares⟩
    · obtain ⟨doc, values, hnode⟩ : ∃ doc values,
          Node.enum (s.types.classOf e.name) doc values ∈ s.enums := by
        rw [enums, if_neg (by simpa using List.ne_nil_of_mem he)]
        exact ⟨_, _, List.mem_cons_of_mem _ (List.mem_map.2 ⟨e, he, rfl⟩)⟩
      exact ⟨_, List.mem_append_left _ (henums _ (List.mem_append_right _ hnode)), rfl⟩
    · exact ⟨_, List.mem_append_right _ (List.mem_filterMap.2
        ⟨t, ht, structNode?_eq_some_iff.2 ⟨hcls, rfl⟩⟩), rfl⟩

/-- Each name that a field's descriptor has of the class of a declared type is that of a class in
front, as the structs and their fields are declared. -/
def FieldsInOrder (s : Sources) : Prop :=
  ∀ front t back, s.declarations.structs = front ++ t :: back →
    s.types.classOf t.name ∉ s.overrides → ∀ f ∈ t.fields, ∀ u ∈ s.declarations.declaredTypes,
      s.types.classOf u ∈ evaluatedNames (s.types.descriptor f.type) →
        s.DeclaredBehind front (s.types.classOf u)

/-- **The classes that fields refer to are there in time** exactly if the declarations have them in
front. -/
theorem fieldsDefined_iff (h : s.module? prologue epilogue = some nodes) :
    s.FieldsDefined nodes ↔ s.FieldsInOrder := by
  obtain ⟨opening, rest, rfl, hopening, henums, hrest⟩ := exists_nodes_split h
  constructor
  · intro hdefined front t back hsplit hcls f hf u hu hname
    obtain ⟨node, hnode, hfields⟩ : ∃ node, s.structNode? t = some node ∧
        node.fields = t.fields.map fun f ↦ (f.name, s.types.descriptor f.type) :=
      ⟨_, structNode?_eq_some_iff.2 ⟨hcls, rfl⟩, rfl⟩
    rw [hsplit, List.filterMap_append, List.filterMap_cons_some hnode] at hdefined
    have hfield : (f.name, s.types.descriptor f.type) ∈ node.fields :=
      hfields ▸ List.mem_map.2 ⟨f, hf, rfl⟩
    refine (declaresName_iff hopening henums).1 (hdefined (opening ++ front.filterMap s.structNode?)
      node (back.filterMap s.structNode? ++ rest) ?_ _ hfield u hu hname)
    simp only [List.append_assoc, List.cons_append]
  · intro horder before node after hsplit field hfield u hu hname
    have hne : node.fields ≠ [] := List.ne_nil_of_mem hfield
    have hnode : node ∉ opening := by
      intro hnode
      rcases hopening node hnode with ⟨t, rfl⟩ | hnode
      · exact hne rfl
      · rcases List.mem_append.1 hnode with hnode | hnode
        · obtain ⟨name, lead, values, rfl⟩ := eq_constants_of_mem hnode
          exact hne rfl
        · rcases enums_cases hnode with rfl | ⟨e, -, rfl⟩
          · exact hne rfl
          · exact hne rfl
    obtain ⟨front', back', hstructs, rfl⟩ :=
      exists_split_of_append_eq hsplit hnode fun hnode ↦ hne (hrest node hnode)
    -- The structs in front are those of the nodes in front and some that are written by hand.
    obtain ⟨front, last, hlast, rfl, hback⟩ := List.filterMap_eq_append_iff.1 hstructs
    obtain ⟨byHand, t, back, rfl, hbyHand, hstruct, -⟩ := List.filterMap_eq_cons_iff.1 hback
    obtain ⟨hcls, rfl⟩ := structNode?_eq_some_iff.1 hstruct
    obtain ⟨f, hf, rfl⟩ := List.mem_map.1 hfield
    have hfront : front.filterMap s.structNode? =
        (front ++ byHand).filterMap s.structNode? := by
      rw [List.filterMap_append, List.filterMap_eq_nil_iff.2 hbyHand, List.append_nil]
    rw [hfront]
    refine (declaresName_iff hopening henums).2 (horder (front ++ byHand) t back ?_ hcls f hf u hu
      hname)
    rw [hlast, List.append_assoc]

/-! ## Headers in order -/

/-- The classes of declared types are told apart from all other names that descriptors have. -/
structure PlainClasses (s : Sources) (configured : Table) : Prop where
  identifier : ∀ u ∈ s.declarations.declaredTypes, isIdentifier (s.types.classOf u) = true
  notBuiltIn : ∀ u ∈ s.declarations.declaredTypes, s.types.classOf u ∉ builtInNames
  /-- Where one is configured, it is the class of a declared type. -/
  configured : ∀ {t e : Text}, configured[t]? = some e → ∀ u ∈ s.declarations.declaredTypes,
    s.types.classOf u ∈ evaluatedNames e → t ∈ s.declarations.declaredTypes

open Descriptors in
/-- A descriptor that is given to a type names the class of a declared type only if it is that. -/
theorem PlainClasses.eq_classOf {configured : Table} (h : s.PlainClasses configured)
    (hplain : s.declarations.PlainAliases)
    (htypes : s.types = .build s.conventions configured s.declarations) {o e u : Text}
    (hgiven : given? s.conventions configured s.declarations o = some e)
    (hu : u ∈ s.declarations.declaredTypes) (hname : s.types.classOf u ∈ evaluatedNames e) :
    o ∈ s.declarations.declaredTypes ∧ s.types.classOf u = s.types.classOf o := by
  have ho : o ∈ s.declarations.declaredTypes := by
    rw [given?] at hgiven
    cases hconfigured : configured[o]? with
    | some e' =>
      obtain rfl : e' = e := by simpa [hconfigured] using hgiven
      exact h.configured hconfigured u hu hname
    | none =>
      rw [hconfigured, Option.none_or] at hgiven
      cases hbasic : basicTypes.lookup o with
      | some e' =>
        obtain rfl : e' = e := by simpa [hbasic] using hgiven
        obtain ⟨before, after, hsplit, -⟩ := List.lookup_eq_some_iff.1 hbasic
        have hentry : (o, e') ∈ basicTypes := hsplit ▸ by simp
        exact absurd (mem_builtInNames _ hentry _ hname) (h.notBuiltIn u hu)
      | none =>
        rw [hbasic, Option.none_or] at hgiven
        split at hgiven
        · assumption
        · exact absurd hgiven (by simp)
  have hlook : s.types.resolve? o = some e := by
    rw [htypes]
    exact (TypeTable.rules_build hplain).ofGiven hgiven
  have hclass : s.types.classOf o = e := by rw [TypeTable.classOf, hlook, Option.getD_some]
  rw [← hclass, evaluatedNames_of_isIdentifier (h.identifier o ho)] at hname
  exact ⟨ho, List.mem_singleton.1 hname⟩

/-- In headers that are in order, the classes that fields refer to are there in time. -/
theorem fieldsInOrder_of_refersBack {configured : Table}
    (htypes : s.types = .build s.conventions configured s.declarations)
    (hplain : s.declarations.PlainAliases) (hclasses : s.PlainClasses configured)
    (hvalue : s.declarations.InValueOrder) (hback : s.declarations.RefersBack)
    (hkept : ∀ t ∈ s.declarations.structs, s.types.classOf t.name ∉ s.overrides) :
    s.FieldsInOrder := by
  intro front t back hsplit _ f hf u hu hname
  have hnames : s.types.classOf u ∈ evaluatedNames
      ((TypeTable.build s.conventions configured s.declarations).descriptor f.type) := by
    rwa [← htypes]
  rcases TypeTable.exists_reaches_of_mem hplain hnames with heq | ⟨o, e, hreaches, hgiven, hin⟩
  · exact absurd (heq ▸ List.mem_cons_self) (hclasses.notBuiltIn u hu)
  obtain ⟨ho, heq⟩ := hclasses.eq_classOf hplain htypes hgiven hu hin
  rw [heq]
  have hfront (h : o ∈ front.map (·.name)) : s.DeclaredBehind front (s.types.classOf o) := by
    obtain ⟨t', ht', rfl⟩ := List.mem_map.1 h
    exact .inr (.inr ⟨t', ht', rfl, hkept t' (hsplit ▸ List.mem_append_left _ ht')⟩)
  rcases hback front t back hsplit f hf o ho hreaches with h | ⟨h, hstands⟩ | h
  · obtain ⟨e', he', rfl⟩ := List.mem_map.1 h
    exact .inr (.inl ⟨e', he', rfl⟩)
  · obtain ⟨t', ht', rfl⟩ := List.mem_map.1 h
    exact hfront (hvalue front t back hsplit f hf t' ht' hstands)
  · exact hfront h

/-- **The classes that fields of structs refer to**, in a whole module.

They are declared in front of the struct exactly if they are classes of constants, of enumerations
or of structs before it that are not written by hand.  So they are in headers in which every struct
is declared before it is used by value, if fields refer to nothing else but enumerations and structs
before, and no struct is written by hand.  A field that has another declared type, or is a pointer
to one, names a class that is not declared yet. -/
theorem fieldsDefined_module (s : Sources) (prologue epilogue : Option Text) :
    (s.LinksEnd ↔ ∃ nodes, s.module? prologue epilogue = some nodes) ∧
      ∀ nodes, s.module? prologue epilogue = some nodes →
        (s.FieldsDefined nodes ↔ s.FieldsInOrder) ∧
        (∀ configured, s.types = .build s.conventions configured s.declarations →
          s.declarations.PlainAliases → s.PlainClasses configured →
          s.declarations.InValueOrder → s.declarations.RefersBack →
          (∀ t ∈ s.declarations.structs, s.types.classOf t.name ∉ s.overrides) →
          s.FieldsDefined nodes) ∧
        ∀ front t back, s.declarations.structs = front ++ t :: back →
          s.types.classOf t.name ∉ s.overrides → ∀ f ∈ t.fields,
          ∀ u ∈ s.declarations.declaredTypes, isIdentifier (s.types.classOf u) = true →
            s.types.descriptor f.type = s.types.classOf u ∨
              s.types.descriptor f.type = pointerTo (s.types.classOf u) →
            ¬s.DeclaredBehind front (s.types.classOf u) → ¬s.FieldsDefined nodes := by
  refine ⟨linksEnd_iff_module prologue epilogue, fun nodes h ↦ ⟨fieldsDefined_iff h, ?_, ?_⟩⟩
  · intro configured htypes hplain hclasses hvalue hback hkept
    exact (fieldsDefined_iff h).2
      (fieldsInOrder_of_refersBack htypes hplain hclasses hvalue hback hkept)
  · intro front t back hsplit hcls f hf u hu hidentifier htype hnot hdefined
    refine hnot ((fieldsDefined_iff h).1 hdefined front t back hsplit hcls f hf u hu ?_)
    rcases htype with htype | htype
    · rw [htype, evaluatedNames_of_isIdentifier hidentifier]
      exact List.mem_cons_self
    · rw [htype, evaluatedNames_pointerTo, evaluatedNames_of_isIdentifier hidentifier]
      exact List.mem_cons_of_mem _ List.mem_cons_self

/-- A library with a struct that refers to the one in front, by value and by a pointer, and to an
enumeration. -/
def segmentLibrary : Sources :=
  let declarations : Declarations :=
    { enums := [{ name := "XnKind", members := [] }]
      structs := [{ name := "XnPoint", fields := [{ name := "x", type := "int" }] },
        { name := "XnSegment"
          fields := [{ name := "a", type := "XnPoint" }, { name := "b", type := "XnPoint*" },
            { name := "kind", type := "XnKind" }] }] }
  { conventions := {}, declarations, types := .build {} ∅ declarations, overrides := ∅ }

theorem fieldsDefined_module_segment :
    ∃ nodes ∈ segmentLibrary.module? none none, segmentLibrary.FieldsDefined nodes := by
  obtain ⟨nodes, hnodes⟩ := (fieldsDefined_module segmentLibrary none none).1.1 (by decide +kernel)
  refine ⟨nodes, hnodes, ((fieldsDefined_module segmentLibrary none none).2 nodes hnodes).2.1 ∅ rfl
    ?_ ?_ ?_ ?_ ?_⟩
  · intro t
    exact Std.TreeMap.not_mem_emptyc
  · exact ⟨by decide +kernel, by decide +kernel, fun h ↦ absurd h (by simp)⟩
  · have hvalue {fields : List Parameter} {structs : List Struct} {names : List Text}
        (h : ∀ f ∈ fields, ∀ u ∈ structs, u.name = f.type → u.name ∈ names) :
        ∀ f ∈ fields, ∀ u ∈ structs,
          segmentLibrary.declarations.StandsFor f.type u.name → u.name ∈ names :=
      fun f hf u hu hstands ↦ h f hf u hu (hstands.eq rfl)
    exact forall_split_cons (hvalue (by decide))
      (forall_split_cons (hvalue (by decide)) forall_split_nil)
  · have hback {fields : List Parameter} {declared enums structs names : List Text}
        (h : ∀ f ∈ fields, ∀ u ∈ declared,
          f.type.dropTail (· == '*') = u.dropTail (· == '*') → u ∈ enums ∨ u ∈ names) :
        ∀ f ∈ fields, ∀ u ∈ declared, segmentLibrary.declarations.Reaches f.type u → u ∈ enums ∨
          (u ∈ structs ∧ segmentLibrary.declarations.StandsFor f.type u) ∨ u ∈ names :=
      fun f hf u hu hreaches ↦ (h f hf u hu (hreaches.dropTail_eq rfl)).imp_right .inr
    exact forall_split_cons (hback (by decide))
      (forall_split_cons (hback (by decide)) forall_split_nil)
  · decide +kernel

/-- A library with a callback, and a struct that has a field of its type. -/
def hookLibrary : Sources :=
  let conventions : Conventions := {}
  let declarations := (Declarations.ofHeaders conventions [] [("a.h",
    "typedef void (XN_CALLBACK_TYPE* XnHook)(int n);\n" ++
      "struct XnWatcher\n\x7b\nXnHook hook;\n\x7d;\n")]).1
  { conventions, declarations, types := .build conventions ∅ declarations, overrides := ∅ }

/-- The class of the callback comes behind the struct. -/
theorem hook_undefined : hookLibrary.declarations.InValueOrder ∧
    ∃ nodes ∈ hookLibrary.module? none none, ¬hookLibrary.FieldsDefined nodes := by
  obtain ⟨hstructs, haliases, henums, hconstants, hcallback⟩ :
      hookLibrary.declarations.structs =
          [{ name := "XnWatcher", fields := [{ name := "hook", type := "XnHook" }]
             location := ⟨"a.h", 5⟩ }] ∧
        hookLibrary.declarations.aliases.toList = [] ∧ hookLibrary.declarations.enums = [] ∧
        hookLibrary.constantGroups = [] ∧
        "XnHook".toList ∈ hookLibrary.declarations.declaredTypes := by
    decide +kernel
  have hlook : hookLibrary.types.resolve? "XnHook" = some ("Hook" : Text) := by decide +kernel
  have hclass : hookLibrary.types.classOf "XnHook" = ("Hook" : Text) :=
    congrArg (·.getD "XnHook") hlook
  have hdescriptor : hookLibrary.types.descriptor "XnHook" = ("Hook" : Text) :=
    congrArg (·.getD anyPointer) hlook
  obtain ⟨nodes, hnodes⟩ : ∃ nodes, hookLibrary.module? none none = some nodes :=
    (linksEnd_iff_module none none).1 (by decide +kernel)
  refine ⟨?_, nodes, hnodes, fun hdefined ↦ ?_⟩
  · rw [Declarations.InValueOrder, hstructs]
    refine forall_split_cons (fun f hf u hu hstands ↦ absurd (hstands.eq haliases) ?_)
      forall_split_nil
    obtain rfl := List.mem_singleton.1 hf
    obtain rfl := List.mem_singleton.1 hu
    decide
  · have horder := (fieldsDefined_iff hnodes).1 hdefined [] _ [] hstructs (fun h ↦ absurd h
      Std.TreeMap.not_mem_emptyc) _ List.mem_cons_self "XnHook" hcallback
    rw [hdescriptor, hclass, DeclaredBehind, hconstants, henums] at horder
    obtain ⟨node, h, -⟩ | ⟨e, h, -⟩ | ⟨t, h, -⟩ := horder (by decide)
    · exact absurd h List.not_mem_nil
    · exact absurd h List.not_mem_nil
    · exact absurd h List.not_mem_nil

end Sources

end HeaderBindings
