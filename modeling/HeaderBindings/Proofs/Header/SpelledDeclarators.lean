import HeaderBindings.Proofs.Header.Tokens

/-!
# Reading declarators however they are spelled

A declarator has one reading for all its spellings.  What it is made of are its `DeclaratorParts`:
qualifiers and `const` in front, the words of the type, stars and `const` behind them, the name, and
perhaps an array suffix.  Where blanks stand is left to the spelling, and a closing brace of an
inline body may stand in front of it.

* `Spells.parse_suffix` reads a spelling of any tokens that end in a name, with a suffix or without
  one.  The text is taken apart until it fits what is known of the patterns of `Declarator.parse`.
* `DeclaratorParts.parse_of_isWritten` says what that is for the tokens of a declarator: the name,
  and the words next to each other with a star for each star and for a suffix.
-/

set_option autoImplicit false

namespace HeaderBindings

open Declarator Token

section

variable {tag t u v pad suffix : Text}

/-! ## Array suffixes -/

/-- Removing `const` leaves an array suffix one. -/
theorem Declarator.removeAll_suffix (hpad : ∀ c ∈ pad, isBlank c = true)
    (hsuffix : IsSuffix suffix) : ∃ suffix', IsSuffix suffix' ∧ (suffix' = [] ↔ suffix = []) ∧
      (∀ c ∈ suffix', c ∈ suffix) ∧
      ∀ s, constWord.removeAll (s ++ pad ++ suffix) = constWord.removeAll s ++ pad ++ suffix' := by
  have hnotWord {c : Char} (hc : c ∈ pad) : isWordChar c = false :=
    isWordChar_of_isBlank (hpad c hc)
  -- No run of word characters in the blanks is `const`, nor between them and the bracket.
  have hblank (s : Text) : constWord.removeAll (s ++ pad) = constWord.removeAll s ++ pad := by
    clear hsuffix
    induction pad using List.reverseRecOn with
    | nil => simp
    | append_singleton pad c ih =>
      have hmore := ih (fun x hx ↦ hpad x (List.mem_append_left [c] hx))
        (fun hx ↦ hnotWord (List.mem_append_left [c] hx))
      rw [← List.append_assoc, removeAll_closed _ (hnotWord (by simp)), hmore, List.append_assoc]
  rcases hsuffix with rfl | ⟨size, rfl, hopening, hclosing⟩
  · exact ⟨[], Or.inl rfl, Iff.rfl, by simp, fun s ↦ by simpa using hblank s⟩
  · refine ⟨'[' :: (constWord.removeAll size ++ [']']), Or.inr ⟨_, rfl,
      fun hmem ↦ hopening (mem_of_mem_removeAll hmem),
      fun hmem ↦ hclosing (mem_of_mem_removeAll hmem)⟩, by simp, fun c hc ↦ ?_, fun s ↦ ?_⟩
    · simp only [List.mem_cons, List.mem_append, List.not_mem_nil, or_false] at hc ⊢
      exact hc.imp_right (Or.imp_left mem_of_mem_removeAll)
    · rw [constWord_eq,
        Pattern.removeAll_append_cons const_ne_nil isWordChar_of_mem_const (by decide),
        ← constWord_eq, hblank, removeAll_closed _ (by decide)]

/-- A text with an array suffix ends as code does. -/
theorem Declarator.IsSuffix.exists_trim (hsuffix : IsSuffix suffix) (u : Text)
    (ht : t.IsSolid) (hpad : ∀ c ∈ pad, isBlank c = true) (hv : ∀ c ∈ v, isBlank c = true) :
    ∃ pad' v', (∀ c ∈ pad', isBlank c = true) ∧ (∀ c ∈ v', isBlank c = true) ∧
      Text.IsSolid (t ++ pad' ++ suffix) ∧
      u ++ t ++ pad ++ suffix ++ v = u ++ (t ++ pad' ++ suffix) ++ v' := by
  rcases hsuffix with rfl | ⟨size, rfl, -⟩
  · exact ⟨[], pad ++ v, by simp, List.forall_mem_append.2 ⟨hpad, hv⟩, by simpa using ht, by simp⟩
  · refine ⟨pad, v, hpad, hv, ?_, by simp⟩
    have hlast : Text.IsSolid [']'] := Text.isSolid_of_all (by decide) (by decide)
    simpa using ht.join (pad ++ '[' :: size) hlast

/-- What stands behind a name is no part of it. -/
theorem Declarator.IsSuffix.head? (hsuffix : IsSuffix suffix) (hpad : ∀ c ∈ pad, isBlank c = true) :
    ∀ c ∈ (pad ++ suffix).head?, isWordChar c = false := by
  intro c hc
  cases pad with
  | cons x pad =>
    obtain rfl : x = c := by simpa using hc
    exact isWordChar_of_isBlank (hpad x List.mem_cons_self)
  | nil =>
    rcases hsuffix with rfl | ⟨size, rfl, -⟩
    · simp at hc
    · obtain rfl : '[' = c := by simpa using hc
      decide

/-! ## In front of a declarator -/

/-- Blanks, and perhaps a closing brace among them. -/
def Declarator.IsFront (u : Text) : Prop :=
  ∃ a b, (∀ c ∈ a ++ b, isBlank c = true) ∧ (u = a ++ b ∨ u = a ++ '\x7d' :: b)

theorem Declarator.IsFront.of_blanks (hu : ∀ c ∈ u, isBlank c = true) : IsFront u :=
  ⟨u, [], by simpa using hu, Or.inl (List.append_nil u).symm⟩

theorem Declarator.IsFront.append (h : IsFront u) (hv : ∀ c ∈ v, isBlank c = true) :
    IsFront (u ++ v) := by
  obtain ⟨a, b, hblanks, hu⟩ := h
  refine ⟨a, b ++ v, by rw [← List.append_assoc]; exact List.forall_mem_append.2 ⟨hblanks, hv⟩, ?_⟩
  rcases hu with rfl | rfl <;> simp

/-- What stands in front of a declarator is passed over. -/
theorem Declarator.IsFront.parse_eq (h : IsFront u) (ht : t.IsSolid)
    (hfirst : t.head? ≠ some '\x7d') (hbrace : '\x7b' ∉ t) (hv : ∀ c ∈ v, isBlank c = true)
    {s : Text} (hremoved : (constWord.removeAll t).trim = s) :
    parse tag (u ++ t ++ v) =
      match (Declarator.callbackPattern tag).search s with
      | some m => .named (m.get 1) callbackType
      | none => parsePlain s := by
  obtain ⟨a, b, hblanks, rfl | rfl⟩ := h
  · exact Declarator.parse_eq hblanks hv ht hfirst hbrace hremoved
  · rw [List.forall_mem_append] at hblanks
    have hsolid : Text.IsSolid ('\x7d' :: (b ++ t)) := by
      simpa using (Text.isSolid_of_all (t := ['\x7d']) (by decide) (by decide)).join b ht
    have htrim : (a ++ '\x7d' :: b ++ t ++ v).trim = '\x7d' :: (b ++ t) := by
      simpa using Text.trim_pad hblanks.1 hsolid hv
    have htrimStart : Text.trimStart (b ++ t) = t := by
      simpa using Text.trimStart_pad hblanks.2 ht []
    have hempty : t.isEmpty = false := by simpa using ht.ne_nil
    have hopens := Text.contains_singleton_eq_false hbrace
    rw [parse, htrim]
    cases hsearch : (Declarator.callbackPattern tag).search s <;>
      simp only [htrimStart, hempty, hopens, Bool.false_eq_true, if_false, hremoved, hsearch]

/-! ## Spellings -/

namespace Spells

variable {ts : List Token} {name : Identifier}

/-- No other character stands in a spelling with blanks behind it. -/
theorem notMem_pad (h : Spells t ts) (hpad : ∀ c ∈ pad, isBlank c = true) {c : Char}
    (hchar : isIdentChar c = false) (hblank : isBlank c = false) (hstar : c ≠ '*') :
    c ∉ t ++ pad := by
  rw [List.mem_append, not_or]
  refine ⟨h.notMem hchar (Or.inl hblank) hstar, fun hmem ↦ ?_⟩
  exact absurd ((hpad c hmem).symm.trans hblank) (by simp)

/-- Without `const` and outer blanks, a declarator is read as its tokens behind the qualifiers and
its name, and an array suffix as a further star. -/
theorem parsePlain (h : Spells t (ts ++ [.word name])) (hfirst : ∀ c ∈ t.head?, isBlank c = false)
    {w : Identifier} {rest : List Token} (hcons : ts.dropWhile isQualifier = .word w :: rest)
    (hpad : ∀ c ∈ pad, isBlank c = true) (hsuffix : IsSuffix suffix) :
    Declarator.parsePlain (t ++ pad ++ suffix) = .named name.1
      (flat (.word w :: rest) ++ if suffix = [] then [] else ['*']) := by
  have htokens : (ts ++ [Token.word name]).dropWhile isQualifier =
      .word w :: (rest ++ [.word name]) := by
    rw [List.dropWhile_append, hcons]
    rfl
  have hlength : t.length ≤ (t ++ pad ++ suffix).length := by
    simp only [List.length_append]
    omega
  obtain ⟨s, hdrop, hspells, hhead⟩ := h.dropQualifiers (hsuffix.head? hpad) hfirst hlength
    ⟨w, rest ++ [.word name], htokens⟩
  rw [htokens, ← List.cons_append] at hspells
  obtain ⟨front, blanks, rfl, hblanks, hfront, hlast⟩ := hspells.exists_name
  have hfirst' : ∀ c ∈ front.head?, isBlank c = false := by
    obtain ⟨x, r, rfl⟩ := List.exists_cons_of_ne_nil (hfront.ne_nil (by simp))
    simpa using hhead
  obtain ⟨core, gap, rfl, hcore, hgapne, hgap⟩ := hfront.exists_gap hfirst' hlast
  have htype : (core ++ gap).withoutBlanks = flat (.word w :: rest) := hfront.withoutBlanks
  have hlines : '\n' ∉ core := fun hmem ↦
    hfront.notMem (c := '\n') (by decide) (by decide) (by decide) (List.mem_append_left gap hmem)
  have hclosed : ClosesBrackets (core ++ gap) :=
    closesBrackets_of_notMem (hfront.notMem (by decide) (by decide) (by decide))
  have hdots : (core ++ gap).withoutBlanks ≠ "..." := by
    obtain ⟨x, w', hw, hx, -⟩ := exists_cons_of_isIdentifier w.2
    rw [htype, flat, List.flatMap_cons, text, hw]
    intro heq
    obtain rfl := (List.cons.inj heq).1
    exact absurd hx (by decide)
  have hsplit : Declarator.dropQualifiers (t ++ pad ++ suffix).length (t ++ pad ++ suffix) =
      core ++ gap ++ name.1 ++ (blanks ++ pad) ++ suffix := by
    simpa using hdrop
  rw [parsePlain_of_dropQualifiers name.2 hsplit hcore hlines hclosed hgapne hgap hdots
    (List.forall_mem_append.2 ⟨hblanks, hpad⟩) hsuffix, htype]
  split <;> simp

/-- **A declarator is read** as the declared tokens and the name, and an array suffix as a further
star. -/
theorem parse_suffix (h : Spells t (ts ++ [.word name])) (hname : name.1 ≠ "const")
    (hword : HasType ts) (tag : Text) (hpad : ∀ c ∈ pad, isBlank c = true)
    (hsuffix : IsSuffix suffix) (hplain : ∀ c ∈ ['(', '\x7b'], c ∉ suffix) (hu : IsFront u)
    (hv : ∀ c ∈ v, isBlank c = true) :
    Declarator.parse tag (u ++ t ++ pad ++ suffix ++ v) =
      .named name.1 (flat (declared ts) ++ if suffix = [] then [] else ['*']) := by
  obtain ⟨u₁, s, v₁, rfl, hu₁, hv₁, hs, hspells⟩ := h.exists_pad (by simp)
  obtain ⟨pad₁, v₂, hpad₁, hv₂, hsolid, htext⟩ := hsuffix.exists_trim (u ++ u₁) hs
    (List.forall_mem_append.2 ⟨hv₁, hpad⟩) hv
  have hbrace : '\x7b' ∉ s ++ pad₁ ++ suffix := fun hmem ↦ (List.mem_append.1 hmem).elim
    (hspells.notMem_pad hpad₁ (by decide) (by decide) (by decide)) (hplain _ (by decide))
  have hfirst : (s ++ pad₁ ++ suffix).head? ≠ some '\x7d' := by
    obtain ⟨x, r, rfl, -⟩ := hs.first
    rintro heq
    obtain rfl : x = '\x7d' := by simpa using heq
    exact hspells.notMem (c := '\x7d') (by decide) (by decide) (by decide) List.mem_cons_self
  -- What is left without `const` is spelled by the other tokens, with blanks around it.
  obtain ⟨suffix', hsuffix', hnil, hsub, hremoved⟩ := removeAll_suffix hpad₁ hsuffix
  have hplainTokens := hspells.removeAll_const
  rw [plain_concat hname] at hplainTokens
  obtain ⟨u₂, s₂, v₃, hpadded, hu₂, hv₃, hs₂, hspells₂⟩ := hplainTokens.exists_pad (by simp)
  obtain ⟨pad₂, v₄, hpad₂, hv₄, hsolid₂, htext₂⟩ := hsuffix'.exists_trim u₂ hs₂
    (List.forall_mem_append.2 ⟨hv₃, hpad₁⟩) (v := []) (by simp)
  have htrim : (constWord.removeAll (s ++ pad₁ ++ suffix)).trim = s₂ ++ pad₂ ++ suffix' := by
    have hwhole : constWord.removeAll (s ++ pad₁ ++ suffix) =
        u₂ ++ (s₂ ++ pad₂ ++ suffix') ++ v₄ := by
      rw [← htext₂, hremoved, hpadded]
      simp
    rw [hwhole, Text.trim_pad hu₂ hsolid₂ hv₄]
  have hparenthesis : '(' ∉ s₂ ++ pad₂ ++ suffix' := fun hmem ↦ (List.mem_append.1 hmem).elim
    (hspells₂.notMem_pad hpad₂ (by decide) (by decide) (by decide))
    fun hmem ↦ hplain _ (by decide) (hsub _ hmem)
  have hnone : (Declarator.callbackPattern tag).search (s₂ ++ pad₂ ++ suffix') = none :=
    search_callback_eq_none fun a r hsplit ↦ absurd (by rw [hsplit]; simp) hparenthesis
  obtain ⟨w, rest, hcons⟩ := hword
  have hread := hspells₂.parsePlain (by simpa using hs₂.isBlank_of_mem_head? []) hcons hpad₂
    hsuffix'
  have hwhole : u ++ (u₁ ++ s ++ v₁) ++ pad ++ suffix ++ v =
      u ++ u₁ ++ (s ++ pad₁ ++ suffix) ++ v₂ := by
    rw [← htext]
    simp
  rw [hwhole, (hu.append hu₁).parse_eq hsolid hfirst hbrace hv₂ htrim, hnone]
  simp only [hread, hcons, hnil]

/-- **A declarator without a suffix** is read as the declared tokens and the name. -/
theorem parse (h : Spells t (ts ++ [.word name])) (hname : name.1 ≠ "const")
    (hword : HasType ts) (tag : Text) :
    Declarator.parse tag t = .named name.1 (flat (declared ts)) := by
  have hblanks : ∀ c ∈ ([] : Text), isBlank c = true := by simp
  simpa using h.parse_suffix hname hword tag hblanks (Or.inl rfl : IsSuffix []) (by simp)
    (.of_blanks hblanks) hblanks

end Spells

end

/-! ## The parts of a declarator -/

/-- A word that may stand in front of a type without being a part of it. -/
abbrev LeadWord := { w : Text // w ∈ ignoredWords }

/-- What stands between the brackets of an array suffix, without any bracket, brace or parenthesis
of its own. -/
abbrev SuffixSize := { s : Text // ∀ c ∈ s, c ∉ "[]\x7b\x7d()".toList }

/-- What stands between a type and its name. -/
inductive Separator where
  | star
  | const
deriving DecidableEq

/-- What a declarator is made of, blanks apart. -/
structure DeclaratorParts where
  lead : List LeadWord
  first : TypeWord
  more : List TypeWord
  separators : List Separator
  name : DeclaredName
  size : Option SuffixSize

namespace LeadWord

theorem isIdentifier (w : LeadWord) : isIdentifier w.1 = true :=
  (by decide : ∀ w ∈ ignoredWords, HeaderBindings.isIdentifier w = true) w.1 w.2

def token (w : LeadWord) : Token := .word ⟨w.1, w.isIdentifier⟩

theorem isQualifier_token {w : LeadWord} (h : w.token ≠ Token.const) :
    w.token.isQualifier = true := by
  have hword : w.1 ≠ "const" := by simpa [token, word_eq_const_iff] using h
  simpa [token, isQualifier] using (List.mem_cons.1 w.2).resolve_left hword

end LeadWord

theorem TypeWord.isIdentifier (w : TypeWord) : HeaderBindings.isIdentifier w.1 = true :=
  w.2.1

namespace Separator

def token : Separator → Token
  | star => .star
  | const => Token.const

/-- Of what stands between a type and its name the stars count. -/
theorem plain_map_token (separators : List Separator) :
    plain (separators.map token) = List.replicate (separators.count star) .star := by
  induction separators with
  | nil => rfl
  | cons separator separators ih =>
    cases separator with
    | star =>
      rw [List.count_cons_self, List.replicate_succ, ← ih]
      exact plain_cons_of_ne (by decide) _
    | const =>
      rw [List.count_cons_of_ne (by decide), ← ih]
      exact plain_const_cons _

end Separator

namespace DeclaratorParts

variable (d : DeclaratorParts)

/-- The words of the type. -/
def words : List TypeWord := d.first :: d.more

/-- The tokens of the words of the type. -/
def wordTokens : List Token := d.words.map fun w ↦ .word ⟨w.1, w.isIdentifier⟩

/-- What stands in front of the name. -/
def tokens : List Token :=
  d.lead.map LeadWord.token ++ d.wordTokens ++ d.separators.map Separator.token

/-- The array suffix. -/
def suffix : Text :=
  match d.size with
  | some size => '[' :: (size.1 ++ [']'])
  | none => []

/-- The words next to each other, with a star for each star and for an array suffix. -/
def type : Text :=
  (d.words.map (·.1)).flatten ++ List.replicate (d.separators.count .star) '*' ++
    if d.size.isSome then ['*'] else []

/-- The text is the declarator, with blanks wherever they may stand. -/
def IsWritten (t : Text) : Prop :=
  ∃ u s pad v, t = u ++ s ++ pad ++ d.suffix ++ v ∧ IsFront u ∧
    Spells s (d.tokens ++ [.word ⟨d.name.1, d.name.2.1⟩]) ∧
    (∀ c ∈ pad, isBlank c = true) ∧ ∀ c ∈ v, isBlank c = true

theorem plain_wordTokens : plain d.wordTokens = d.wordTokens := by
  refine List.filter_eq_self.2 fun token hmem ↦ ?_
  obtain ⟨w, -, rfl⟩ := List.mem_map.1 hmem
  have hne : w.1 ≠ "const" := fun heq ↦ w.2.2 (heq ▸ List.mem_cons_self)
  simpa [word_eq_const_iff] using hne

/-- Of the parts of a declarator the words and the stars count. -/
theorem declared_tokens : declared d.tokens =
    d.wordTokens ++ List.replicate (d.separators.count .star) .star := by
  have hlead : ∀ token ∈ plain (d.lead.map LeadWord.token), token.isQualifier = true := by
    intro token hmem
    obtain ⟨hmem, hne⟩ := List.mem_filter.1 hmem
    obtain ⟨w, -, rfl⟩ := List.mem_map.1 hmem
    exact LeadWord.isQualifier_token (by simpa using hne)
  have hplain : plain d.tokens = plain (d.lead.map LeadWord.token) ++
      (d.wordTokens ++ plain (d.separators.map Separator.token)) := by
    rw [tokens, plain, List.filter_append, List.filter_append, List.append_assoc]
    exact congrArg (_ ++ ·) (congrArg (· ++ _) d.plain_wordTokens)
  have hfirst : d.first.1 ∉ qualifiers := fun hq ↦ d.first.2.2 (List.mem_cons_of_mem _ hq)
  rw [declared, hplain, List.dropWhile_append_of_pos hlead, Separator.plain_map_token]
  exact List.dropWhile_cons_of_neg (by simpa [isQualifier] using hfirst)

theorem hasType_tokens : HasType d.tokens := by
  rw [HasType, declared_tokens]
  exact ⟨_, _, rfl⟩

theorem isSuffix_suffix : IsSuffix d.suffix := by
  rw [DeclaratorParts.suffix]
  cases d.size with
  | none => exact Or.inl rfl
  | some size =>
    exact Or.inr ⟨size.1, rfl, fun hmem ↦ size.2 _ hmem (by decide),
      fun hmem ↦ size.2 _ hmem (by decide)⟩

theorem plain_suffix : ∀ c ∈ ['(', '\x7b'], c ∉ d.suffix := by
  intro c hc
  rw [DeclaratorParts.suffix]
  have hbracket : c ≠ '[' ∧ c ≠ ']' ∧ c ∈ "[]\x7b\x7d()".toList := by
    obtain rfl | rfl : c = '(' ∨ c = '\x7b' := by simpa using hc
    all_goals decide
  cases d.size with
  | none => simp
  | some size => simpa [hbracket] using fun hmem ↦ size.2 c hmem hbracket.2.2

theorem flat_declared_tokens : flat (declared d.tokens) =
    (d.words.map (·.1)).flatten ++ List.replicate (d.separators.count .star) '*' := by
  have hstars (n : Nat) : flat (List.replicate n .star) = List.replicate n '*' := by
    induction n with
    | zero => rfl
    | succ n ih => rw [List.replicate_succ, List.replicate_succ, ← ih]; rfl
  rw [declared_tokens, flat_append, hstars, wordTokens, flat, List.flatMap_map, List.flatMap_def]
  rfl

/-- **A declarator is read** as its name and its type, wherever blanks, `const` and stars stand. -/
theorem parse_of_isWritten {t : Text} (h : d.IsWritten t) (tag : Text) :
    Declarator.parse tag t = .named d.name.1 d.type := by
  obtain ⟨u, s, pad, v, rfl, hu, hspells, hpad, hv⟩ := h
  rw [hspells.parse_suffix d.name.2.2 d.hasType_tokens tag hpad d.isSuffix_suffix d.plain_suffix
    hu hv, flat_declared_tokens, type, suffix]
  cases d.size <;> rfl

/-- An array of pointers, with words and `const` to be left out wherever they may stand. -/
def values : DeclaratorParts where
  lead := [⟨"static", by decide⟩, ⟨"const", by decide⟩]
  first := ⟨"signed", by decide⟩
  more := [⟨"char", by decide⟩]
  separators := [.star, .const, .star, .const]
  name := ⟨"values", by decide⟩
  size := some ⟨" 4 * N ", by simp⟩

theorem parse_of_isWritten_values :
    Declarator.parse "XN_CALLBACK_TYPE"
        "\t\x7d static const signed\t char*const *const values [ 4 * N ]\n" =
      .named "values" "signedchar***" := by
  have hspells : Spells " static const signed\t char*const *const values"
      (values.tokens ++ [.word ⟨values.name.1, values.name.2.1⟩]) := .of_isSpelling (by decide)
  have hwritten : values.IsWritten
      "\t\x7d static const signed\t char*const *const values [ 4 * N ]\n" :=
    ⟨"\t\x7d", _, [' '], ['\n'], by decide,
      ⟨['\t'], [], List.all_eq_true.1 (by decide), Or.inr rfl⟩, hspells,
      List.all_eq_true.1 (by decide), List.all_eq_true.1 (by decide)⟩
  exact (values.parse_of_isWritten hwritten _).trans (by decide)

end DeclaratorParts

end HeaderBindings
