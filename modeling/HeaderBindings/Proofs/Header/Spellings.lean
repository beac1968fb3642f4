import HeaderBindings.Proofs.Header.Functions
import HeaderBindings.Proofs.Header.SpelledDeclarators
import HeaderBindings.Proofs.Header.TypeNames

/-!
# One type in four places

A type stands in front of a parameter, in front of an exported function, in front of a callback and
behind the `typedef` of a type name.  However it is spelled, each place has its own way to read it.

* A parameter and a function are declarators, so that all leading qualifiers are dropped
  (`Spells.parse`).
* In front of a callback nothing is dropped but `const`.
* Behind the `typedef` of a type name one of `struct`, `enum` and `union` is left out if it is the
  very first word, and then nothing is dropped but `const`.

`native_types` says what each place makes of one spelling, and that all four make the same of it
only if no qualifier leads it.
-/

set_option autoImplicit false

namespace HeaderBindings

open Token

/-! ## Functions and callbacks -/

/-- An exported function, with a text up to its name and the text of its only parameter. -/
def functionCode (conventions : Conventions) (head param : Text) : Text :=
  conventions.exportMacro ++ ' ' :: (head ++ '(' :: (param ++ [')', ';']))

/-- A callback, with the text of its type, its name and the text of its only parameter. -/
def callbackCode (conventions : Conventions) (type name param : Text) : Text :=
  typedefWord ++ ' ' :: (type ++ '(' :: (conventions.callbackTag ++
    '*' :: ' ' :: (name ++ ')' :: '(' :: (param ++ [')', ';']))))

/-- A single parameter is read, unless it has type `void`. -/
theorem readParameters_spells {param : Text} {ts : List Token} {p : Identifier}
    (h : Spells param (ts ++ [.word p])) (hp : p.1 ≠ "const") (hword : HasType ts)
    (conventions : Conventions) (declaration location : Text) :
    readParameters conventions declaration location param =
      (some (dropVoid [{ name := p.1, type := flat (declared ts) }]), []) := by
  have hnotMem {c : Char} (hchar : isIdentChar c = false) (hblank : isBlank c = false)
      (hstar : c ≠ '*') : ∀ x ∈ param, x ≠ c := by
    rintro x hx rfl
    exact h.notMem hchar (Or.inl hblank) hstar hx
  have hclosed : isClosed ',' 0 param = true := by
    rw [← List.append_nil param, isClosed_append_of_forall fun x hx ↦
      ⟨hnotMem (by decide) (by decide) (by decide) x hx,
        hnotMem (by decide) (by decide) (by decide) x hx,
        hnotMem (by decide) (by decide) (by decide) x hx⟩]
    rfl
  have hne : p.1.isEmpty = false := by simpa using ne_nil_of_isIdentifier p.2
  have hentry : readParameter conventions declaration location param =
      (some { name := p.1, type := flat (declared ts) }, none) := by
    rw [readParameter, h.parse hp hword]
  have hnamed : (dropVoid [{ name := p.1, type := flat (declared ts) }]).find?
      (fun p ↦ p.name.isEmpty) = none := by
    rw [dropVoid]
    split <;> simp [hne]
  simp only [readParameters, splitTopLevel_of_isClosed hclosed, List.map_cons, List.map_nil, hentry,
    List.filterMap_cons, List.filterMap_nil, hnamed]

section

variable {conventions : Conventions} {l : Layout} {ts ts' : List Token} {head param : Text}

/-- Only the last row closes a declaration that ends like a call. -/
theorem closes_of_joined (hcode : ∀ piece ∈ l.pieces, IsCode piece) {s : Text}
    (hl : l.joined = s ++ [')', ';']) (hs : ';' ∉ s) :
    ∃ inner last, l.codes = inner ++ [last] ∧
      (∀ code ∈ inner, Pattern.finalCall.occursIn code = false) ∧
        Pattern.finalCall.occursIn last = true := by
  obtain ⟨inner, last, hcodes, hinner⟩ := Layout.exists_codes_of_joined hcode hl hs
  exact ⟨inner, last ++ [')', ';'], hcodes,
    fun code hc ↦ Pattern.occursIn_finalCall_eq_false (hinner code hc),
    Pattern.occursIn_finalCall last⟩

/-- The first row of an exported function opens it. -/
theorem opens_functionCode (hexport : isIdentifier conventions.exportMacro = true)
    (hl : l.joined = functionCode conventions head param)
    (hmarker : l.joined.contains conventions.deprecatedMarker = false) {row : Text}
    (hrow : row ∈ l.codes.head?) : (functionKind conventions).opens row = true := by
  obtain ⟨row', r, hrow', hsplit, hr⟩ := l.exists_first_row
  obtain rfl : row' = row := Option.some_inj.1 (hrow'.symm.trans hrow)
  obtain ⟨rest, hrest⟩ := Layout.prefix_of_row (hsplit.symm.trans hl)
    (notMem_of_isIdentifier hexport (by decide)) hr
  have hstarts : row'.startsWith conventions.exportMacro = true :=
    Text.startsWith_iff.2 ⟨rest, hrest⟩
  have hplain : row'.contains conventions.deprecatedMarker = false := by
    rw [← Bool.not_eq_true]
    intro hmarked
    refine absurd (hmarker.symm.trans (Text.contains_of_isInfix ?_)) (by simp)
    exact hsplit ▸ (Text.contains_iff.1 hmarked).trans (List.prefix_append row' r).isInfix
  simp [functionKind, hstarts, hplain]

/-- **A function is read as one declaration**, wherever its lines end. -/
theorem functionCode_declares (hexport : isIdentifier conventions.exportMacro = true)
    (hcode : ∀ piece ∈ l.pieces, IsCode piece) (hl : l.joined = functionCode conventions head param)
    (hhead : Spells head ts) (hne : ts ≠ []) (hparam : Spells param ts')
    (hmarker : l.joined.contains conventions.deprecatedMarker = false) :
    ∃ head', Spells head' ts ∧ l.Declares (functionKind conventions) [head', param] := by
  obtain ⟨u, s, v, hpad, hu, hv, hs, hspells⟩ := hhead.exists_pad hne
  refine ⟨s, hspells, hcode, fun _ hrow ↦ opens_functionCode hexport hl hmarker hrow, ?_, ?_⟩
  · refine closes_of_joined (s := conventions.exportMacro ++ ' ' :: (head ++ '(' :: param))
      hcode (by simp [hl, functionCode]) ?_
    simp [notMem_of_isIdentifier hexport (c := ';') (by decide),
      hhead.notMem (c := ';') (by decide) (by decide) (by decide),
      hparam.notMem (c := ';') (by decide) (by decide) (by decide)]
  · rw [hl]
    refine parts?_functionPattern (b := ' ' :: u) (e := v) hs
      (hspells.notMem (by decide) (by decide) (by decide))
      (hspells.notMem (by decide) (by decide) (by decide))
      (hparam.notMem (by decide) (by decide) (by decide)) (by simp)
      (List.forall_mem_cons.2 ⟨by decide, hu⟩) hv ?_
    simp [functionCode, hpad]

/-- The first row of a callback opens it, if its first parenthesis stands there. -/
theorem opens_callbackCode (htag : isIdentifier conventions.callbackTag = true) {name : Text}
    (hl : l.joined = callbackCode conventions head name param) (hopens : '(' ∈ l.first)
    (hhead : Spells head ts) {row : Text} (hrow : row ∈ l.codes.head?) :
    (callbackKind conventions).opens row = true := by
  obtain ⟨row', r, hrow', hsplit, hr⟩ := l.exists_first_row
  obtain rfl : row' = row := Option.some_inj.1 (hrow'.symm.trans hrow)
  have hmem : '(' ∈ row' := by
    obtain ⟨s', hfirst, -⟩ := l.exists_codes_head
    obtain rfl := Option.some_inj.1 (hfirst.symm.trans hrow)
    exact List.mem_append_left s' hopens
  -- What stands in front of the first parenthesis of the row is known, and the tag behind it.
  obtain ⟨a, rest, rfl, ha⟩ := List.eq_append_cons_of_mem hmem
  have hfront : '(' ∉ typedefWord ++ ' ' :: head := by
    simp [notMem_of_isIdentifier isIdentifier_typedefWord (c := '(') (by decide),
      hhead.notMem (c := '(') (by decide) (by decide) (by decide)]
  have hwhole : a ++ '(' :: (rest ++ r) = typedefWord ++ ' ' :: head ++
      '(' :: (conventions.callbackTag ++ ('*' :: ' ' :: (name ++ ')' :: '(' ::
        (param ++ [')', ';'])))) := by
    simpa [callbackCode] using hsplit.symm.trans hl
  obtain rfl := Text.eq_of_notMem hwhole ha hfront
  have hrest := (List.cons.inj (List.append_cancel_left hwhole)).2
  obtain ⟨rest, rfl⟩ := Layout.prefix_of_row hrest (notMem_of_isIdentifier htag (by decide)) hr
  have hstarts := @occursIn_callbackStart conventions htag (' ' :: head) rest (by simp; decide)
    ?_ ?_
  · simpa [callbackKind] using hstarts
  · simp [hhead.notMem (c := '\n') (by decide) (by decide) (by decide)]
  · rw [List.append_assoc] at hrest
    cases rest with
    | nil => simp
    | cons x rest =>
      obtain rfl := (List.cons.inj (List.append_cancel_left hrest)).1
      simp
      decide

/-- **A callback is read as one declaration**, wherever its lines end behind its opening. -/
theorem callbackCode_declares (htag : isIdentifier conventions.callbackTag = true) {name : Text}
    (hname : isIdentifier name = true) (hcode : ∀ piece ∈ l.pieces, IsCode piece)
    (hl : l.joined = callbackCode conventions head name param) (hopens : '(' ∈ l.first)
    (hhead : Spells head ts) (hne : ts ≠ []) (hparam : Spells param ts') :
    ∃ head', Spells head' ts ∧ l.Declares (callbackKind conventions) [head', name, param] := by
  obtain ⟨u, s, v, hpad, hu, hv, hs, hspells⟩ := hhead.exists_pad hne
  refine ⟨s, hspells, hcode, fun _ hrow ↦ opens_callbackCode htag hl hopens hhead hrow, ?_, ?_⟩
  · refine closes_of_joined (s := typedefWord ++ ' ' :: (head ++ '(' ::
      (conventions.callbackTag ++ '*' :: ' ' :: (name ++ ')' :: '(' :: param))))
      hcode (by simp [hl, callbackCode]) ?_
    simp [notMem_of_isIdentifier htag (c := ';') (by decide),
      notMem_of_isIdentifier isIdentifier_typedefWord (c := ';') (by decide),
      notMem_of_isIdentifier hname (c := ';') (by decide),
      hhead.notMem (c := ';') (by decide) (by decide) (by decide),
      hparam.notMem (c := ';') (by decide) (by decide) (by decide)]
  · rw [hl]
    refine parts?_callbackPattern (b := ' ' :: u) (e := v) htag hs
      (hspells.notMem (by decide) (by decide) (by decide))
      (hspells.notMem (by decide) (by decide) (by decide)) hname
      (hparam.notMem (by decide) (by decide) (by decide)) (by simp)
      (List.forall_mem_cons.2 ⟨by decide, hu⟩) hv ?_
    simp [callbackCode, hpad]

end

/-! ## Four places -/

/-- A type as it is spelled in four places, and the names that stand there with it. -/
structure FourSpellings (ts : List Token) where
  parameterName : DeclaredName
  functionName : DeclaredName
  callbackName : Identifier
  typeName : Identifier
  parameter : Text
  function : Text
  callback : Text
  original : Text
  spells_parameter : Spells parameter (ts ++ [.word ⟨parameterName.1, parameterName.2.1⟩])
  spells_function : Spells function (ts ++ [.word ⟨functionName.1, functionName.2.1⟩])
  spells_callback : Spells callback ts
  spells_original : Spells original (ts ++ [.word typeName])

/-- What is read from an exported function or a callback with one parameter. -/
def singlePrototype (outputTypes : List Text) (name type paramName paramType : Text)
    (location : Location) : Prototype :=
  Prototype.withDirections
    { name, type, params := dropVoid [{ name := paramName, type := paramType }], location }
    outputTypes

/-- **What each place makes of a type**: a parameter and a function drop every leading qualifier, a
callback none, and a type name one of three if it is the first word.  So all make the same of it
just if none leads. -/
theorem native_types {conventions : Conventions}
    (hexport : isIdentifier conventions.exportMacro = true)
    (htag : isIdentifier conventions.callbackTag = true) (file : Text) {ts : List Token}
    (hword : HasType ts) (w : FourSpellings ts) (hkept : w.functionName.1 ∉ conventions.excluded)
    {f c : Layout} (hcode : ∀ piece ∈ f.pieces ++ c.pieces, IsCode piece)
    (hfunction : f.joined = functionCode conventions w.function w.parameter)
    (hcallback : c.joined = callbackCode conventions w.callback w.callbackName.1 w.parameter)
    (hmarker : f.joined.contains conventions.deprecatedMarker = false) (hopens : '(' ∈ c.first) :
    functionFates conventions file (f.text ++ ['\n']) =
        [(.kept (singlePrototype conventions.outputTypes w.functionName.1 (flat (declared ts))
          w.parameterName.1 (flat (declared ts)) ⟨file, 1 + f.breaks⟩), [])] ∧
      callbacks conventions file (c.text ++ ['\n']) =
        ([singlePrototype conventions.outputTypes w.callbackName.1 (flat (plain ts))
          w.parameterName.1 (flat (declared ts)) ⟨file, 1 + c.breaks⟩], []) ∧
      aliases (aliasText w.original ++ ['\n']) =
        [(w.typeName.1, flat (plain (withoutLead ts)))] ∧
      (flat (plain ts) = flat (declared ts) ↔
        ∀ token ∈ (plain ts).head?, token.isQualifier = false) ∧
      (flat (plain (withoutLead ts)) = flat (declared ts) ↔
        ∀ token ∈ (plain (withoutLead ts)).head?, token.isQualifier = false) ∧
      (flat (plain ts) = flat (declared ts) → withoutLead ts = ts) := by
  rw [List.forall_mem_append] at hcode
  have hne : ts ≠ [] := by
    obtain ⟨x, rest, hcons⟩ := hword.exists_cons
    simp [hcons]
  have hdoc : DocFields.ofComment [] = {} := by decide
  refine ⟨?_, ?_, aliases_aliasText w.spells_original hword, flat_plain_eq_iff ts, ?_,
    fun h ↦ withoutLead_eq ((flat_plain_eq_iff ts).1 h)⟩
  · obtain ⟨head, hhead, hdeclares⟩ := functionCode_declares hexport hcode.1 hfunction
      w.spells_function (by simp) w.spells_parameter hmarker
    have hparams := readParameters_spells w.spells_parameter w.parameterName.2.2 hword conventions
      w.functionName.1 (Location.display ⟨file, 1 + f.breaks⟩)
    have hnonempty : w.functionName.1.isEmpty = false := by
      simpa using ne_nil_of_isIdentifier w.functionName.2.1
    rw [functionFates, Layout.blocks_text hdeclares, List.map_singleton]
    simp only [functionOfBlock, List.getElem?_cons_zero, List.getElem?_cons_succ, Option.getD_some,
      hhead.parse w.functionName.2.2 hword, hnonempty, Bool.false_eq_true, if_false, if_neg hkept,
      hparams, hdoc]
    rfl
  · obtain ⟨type, htype, hdeclares⟩ := callbackCode_declares htag w.callbackName.2 hcode.2 hcallback
      hopens w.spells_callback hne w.spells_parameter
    have hparams := readParameters_spells w.spells_parameter w.parameterName.2.2 hword conventions
      w.callbackName.1 (Location.display ⟨file, 1 + c.breaks⟩)
    rw [callbacks, Layout.blocks_text hdeclares, List.map_singleton]
    simp only [callbackOfBlock, List.getElem?_cons_zero, List.getElem?_cons_succ, Option.getD_some,
      htype.plainType, hparams, hdoc]
    rfl
  · rw [← declared_withoutLead]
    exact flat_plain_eq_iff (withoutLead ts)

/-- A constant pointer to constant nodes. -/
def constantNode : List Token := [const, .word ⟨"XnNode", by decide⟩, .star, const]

/-- Each time with other blanks. -/
def constantNodes : FourSpellings constantNode where
  parameterName := ⟨"p", by decide⟩
  functionName := ⟨"xnFirst", by decide⟩
  callbackName := ⟨"XnCallback", by decide⟩
  typeName := ⟨"XnNodePtr", by decide⟩
  parameter := " const\tXnNode * const p "
  function := "const XnNode*const xnFirst"
  callback := "const  XnNode *const"
  original := "const XnNode* const XnNodePtr"
  spells_parameter := .of_isSpelling (by decide)
  spells_function := .of_isSpelling (by decide)
  spells_callback := .of_isSpelling (by decide)
  spells_original := .of_isSpelling (by decide)

/-- A function with such a parameter and such a result, on two lines. -/
def constantNodeFunction : Layout :=
  ⟨"XN_C_API const",
    [(.lineBreak ⟨"\t ", by decide⟩, "XnNode*const xnFirst( const\tXnNode * const p );")]⟩

/-- A callback with them. -/
def constantNodeCallback : Layout :=
  ⟨"typedef const  XnNode *const(XN_CALLBACK_TYPE* XnCallback)(",
    [(.blank, "const\tXnNode * const p );")]⟩

theorem native_types_constantNode :
    functionFates {} "a.h" "XN_C_API const\n\t XnNode*const xnFirst( const\tXnNode * const p );\n" =
        [(.kept { name := "xnFirst", type := "XnNode*", params := [⟨"p", "XnNode*", .input⟩]
                  location := ⟨"a.h", 2⟩ }, [])] ∧
      callbacks {} "a.h" ("typedef const  XnNode *const(XN_CALLBACK_TYPE* XnCallback)" ++
          "( const\tXnNode * const p );\n") =
        ([{ name := "XnCallback", type := "XnNode*", params := [⟨"p", "XnNode*", .input⟩]
            location := ⟨"a.h", 1⟩ }], []) ∧
      aliases "typedef const XnNode* const XnNodePtr;\n" =
        [("XnNodePtr".toList, "XnNode*".toList)] := by
  have hword : HasType constantNode := ⟨⟨"XnNode", by decide⟩, [.star], by decide⟩
  have hfunctionText : constantNodeFunction.text ++ ['\n'] =
      "XN_C_API const\n\t XnNode*const xnFirst( const\tXnNode * const p );\n" := by decide +kernel
  have hcallbackText : constantNodeCallback.text ++ ['\n'] =
      "typedef const  XnNode *const(XN_CALLBACK_TYPE* XnCallback)" ++
        "( const\tXnNode * const p );\n" := by decide +kernel
  have htypeText : aliasText constantNodes.original ++ ['\n'] =
      "typedef const XnNode* const XnNodePtr;\n" := by decide +kernel
  obtain ⟨hfunction, hcallback, hname, -⟩ := @native_types {} (by decide) (by decide) "a.h" _ hword
    constantNodes (by decide) constantNodeFunction constantNodeCallback (by decide +kernel)
    (by decide +kernel) (by decide +kernel) (by decide +kernel) (by decide +kernel)
  rw [← hfunctionText, ← hcallbackText, ← htypeText]
  refine ⟨hfunction.trans (congrArg (fun f ↦ [(FunctionFate.kept f, [])]) ?_),
    hcallback.trans (congrArg (fun f ↦ ([f], [])) ?_), hname.trans ?_⟩
  · decide +kernel
  · decide +kernel
  · decide +kernel

/-- A qualifier that leads is left in place in front of a callback, and behind the `typedef` of a
type name if `const` stands in front of it. -/
theorem native_types_lost :
    (functionFates {} "a.h" "XN_C_API struct XnNode* f(struct XnNode* p);\n").filterMap (·.1.kept?) =
        [{ name := "f", type := "XnNode*", params := [⟨"p", "XnNode*", .input⟩]
           location := ⟨"a.h", 1⟩ }] ∧
      (callbacks {} "a.h" "typedef struct XnNode* (XN_CALLBACK_TYPE* XnCallback)(int x);\n").1.map
          (·.type) = ["structXnNode*".toList] ∧
      aliases "typedef struct XnNode* XnNodePtr;\n" = [("XnNodePtr".toList, "XnNode*".toList)] ∧
      aliases "typedef const struct XnNode* XnNodePtr;\n" =
        [("XnNodePtr".toList, "structXnNode*".toList)] := by
  decide +kernel

end HeaderBindings
