import ThriftGateway.Proofs.Idl.Expressions
import ThriftGateway.Proofs.Number.Reading

/-!
# Parsing what has been written out
-/

namespace ThriftGateway.Idl

open Grammar.Tree (leafText)
open Text (isDigit)

/-- A text without comments describes nothing. -/
private theorem descriptionOf_eq_none {x : CommentIndex} (hx : x.comments = []) (t : Tree) (withTrailing : Bool) :
    descriptionOf x t withTrailing = none := by
  have hleading : ∀ fuel n, x.leadingBlock fuel n = [] := by
    intro fuel n
    cases fuel with
    | zero => rfl
    | succ fuel => simp [CommentIndex.leadingBlock, CommentIndex.leading?, hx]
  unfold descriptionOf
  rw [Option.bind_eq_none_iff]
  intro node _
  simp [CommentIndex.describe, CommentIndex.commentsOf, CommentIndex.trailing, hleading, hx]

/-! ### Fields -/

/-- A sign and digits are a whole number. -/
private theorem matchInt_of_digits {sign digits : List Char} (hsign : sign ∈ [[], ['-']]) (hne : digits ≠ [])
    (hdigits : ∀ c ∈ digits, isDigit c = true) : matchInt (sign ++ digits) = some (sign ++ digits).length := by
  have hspan : spanLength isDigit digits = digits.length := by
    rw [spanLength, List.takeWhile_eq_self_iff.2 hdigits]
  have hlength : digits.length ≠ 0 := by simpa using hne
  have hsplit : splitSign (sign ++ digits) = (sign.length, digits) := by
    simp only [List.mem_cons, List.not_mem_nil, or_false] at hsign
    rcases hsign with rfl | rfl
    · cases digits with
      | nil => exact absurd rfl hne
      | cons c cs =>
        have hc := hdigits c List.mem_cons_self
        refine splitSign_of_ne ?_ ?_ cs
        · rintro rfl
          exact absurd hc (by decide)
        · rintro rfl
          exact absurd hc (by decide)
    · rfl
  unfold matchInt
  rw [hsplit]
  dsimp only
  rw [hspan, if_neg hlength, List.length_append]

private theorem isText_decimal (n : Int) : Terminal.intConstant.IsText (Number.decimal n) := by
  have hsign : (if n < 0 then ['-'] else [] : List Char) ∈ [[], ['-']] := by split <;> simp
  unfold Terminal.IsText
  rw [Number.decimal_toList]
  exact matchInt_of_digits hsign Nat.toDigits_ne_nil fun _ => Number.isDigit_of_mem_toDigits

private theorem reads_fieldId {n : Int} (h : (Nat.toDigits 10 n.natAbs).length ≤ Number.digitLimit) :
    Reads .fieldId [.word .intConstant (Number.decimal n), .fixed .colon] fun t => fieldIdOf t = some n := by
  have hid : ∀ (token colon : Grammar.Token Terminal), token.kind = .intConstant → token.text = Number.decimal n →
      colon.kind = .colon → fieldIdOf (.node .fieldId [.leaf token, .leaf colon]) = some n := by
    intro token colon hkind htext _
    simp [fieldIdOf, leafText, hkind, htext, Number.readInt?_decimal h]
  have hnumber := Written.number (k := .intConstant) (by decide) (isText_decimal n)
  refine Reads.node_of_readable ((ReadsAll.nil.fixed .colon rfl).word ⟨by decide, hnumber⟩) (by decide) (by simp) ?_ ?_
  · rintro _ ⟨token, _, rfl, ⟨hkind, htext⟩, colon, _, rfl, hcolon, rfl⟩
    rw [hid token colon hkind htext hcolon]
    rfl
  · rintro _ - ⟨token, _, rfl, ⟨hkind, htext⟩, colon, _, rfl, hcolon, rfl⟩
    exact hid token colon hkind htext hcolon

private theorem reads_requiredness (r : Requiredness) :
    Reads .requiredness [.fixed r.word] fun t => requirednessOf t = r := by
  cases r <;>
  · refine Reads.node (ReadsAll.nil.fixed _ (by decide)) ?_ (by decide) (by decide)
    rintro _ - ⟨token, _, rfl, hkind, rfl⟩
    simp [requirednessOf, hkind, Requiredness.word]

/-- A value behind an equality sign, or nothing. -/
private theorem reads_default {default : Option ConstValue} (h : ∀ v ∈ default, v.IsExpressible) :
    ReadsAll (if default.isSome then [.terminal .equal, .category .constValue] else [])
      (default.elim [] fun v => .fixed .equal :: v.lexemes) fun ts =>
        (ts = [] ∧ default = none) ∨ ∃ token us v, ts = [.leaf token, .node .constValue us] ∧ token.kind = .equal ∧
          default = some v ∧ valuesOf (.node .constValue us) = [v.flat] := by
  cases default with
  | none => exact ReadsAll.nil.imp fun ts hts => Or.inl ⟨hts, rfl⟩
  | some v =>
    refine ((ReadsAll.single (reads_value v (h v rfl))).fixed .equal rfl).imp fun ts => ?_
    rintro ⟨token, _, rfl, hkind, us, rfl, hus⟩
    exact Or.inr ⟨token, us, v, rfl, hkind, rfl, hus⟩

private theorem reads_field (f : Field) (h : f.IsExpressible) :
    Reads .field f.lexemes fun t => ∀ x : CommentIndex, x.comments = [] → fieldOf x t = f.flat := by
  obtain ⟨line, name, number, requiredness, type, default, description⟩ := f
  have hnumber : ∀ n ∈ number, Reads .fieldId _ _ := fun n hn => reads_fieldId (h.id n hn)
  have hword : ∀ r ∈ requiredness, Reads .requiredness _ _ := fun r _ => reads_requiredness r
  have hparts :=
    ((((reads_default h.default).name h.name).tree (reads_type type h.type)).optional hword).optional hnumber
  refine (Reads.node hparts ?_ ?_ (by decide)).congr (by simp [Field.lexemes])
  · rintro _ hline ⟨u, _, rfl, hu, hnumber, v, _, rfl, hv, hword, us, _, rfl, hus, token, rest, rfl,
      ⟨hkind, htext⟩, hrest⟩
    intro x hx
    have hnumber : u.bind fieldIdOf = number := by
      cases hnumber with
      | none => rfl
      | some hn => rw [Option.bind_some, hn]
    have hword : v.map requirednessOf = requiredness := by
      cases hword with
      | none => rfl
      | some hr => exact congrArg some hr
    rcases hrest with ⟨rfl, rfl⟩ | ⟨_, vs, v, rfl, hequal, rfl, hvs⟩
    all_goals simp [fieldOf, Field.flat, hline, child?_toList hu, child?_toList hv, leaves_toList hu, leaves_toList hv,
        leafText, hkind, htext, typeOf, hus, valueOf, hnumber, hword, descriptionOf_eq_none hx]
    simp [hvs]
  · cases number.isSome <;> cases requiredness.isSome <;> cases default.isSome <;> decide

/-! ### Lists -/

section

variable {ss : List Piece} {ls : List Lexeme} {P : List Tree → Prop}

/-- Items one after the other, each read as a node, and what follows them. -/
private theorem ReadsAll.listed {α β : Type} (list : Category) (element : α → Category) {lexemes : α → List Lexeme}
    {r : CommentIndex → Tree → Option β} {g : α → β} (hlist : list ≠ .document ∧ list ≠ .fieldId)
    (hone : ∀ a, [.category (element a)] ∈ rightSides list)
    (hmore : ∀ a, [.category list, .category (element a)] ∈ rightSides list)
    (hne : ∀ a, element a ≠ list ∧ element a ≠ .separator) (as : List α)
    (has : ∀ a ∈ as, Reads (element a) (lexemes a) fun t => ∀ x, x.comments = [] → r x t = some (g a))
    (h : ReadsAll ss ls P) :
    ReadsAll (if as.isEmpty then ss else .category list :: ss) (as.flatMap lexemes ++ ls)
      (Optionally list (fun u => ∀ x : CommentIndex, x.comments = [] → ∀ t : Tree, t.child? list = u →
        (t.listed list).filterMap (r x) = as.map g) P) := by
  refine (h.many list element hlist hone hmore as has).imp fun ts => ?_
  rintro ⟨u, rest, rfl, hu, hitems, hrest⟩
  refine ⟨u, rest, rfl, hu, fun x hx t ht => hitems.filterMap_listed ht ?_, hrest⟩
  rintro a t ⟨⟨us, rfl⟩, ha⟩
  exact ⟨_, us, rfl, (hne a).1, (hne a).2, ha x hx⟩

/-- Items one after the other, each read as one thing, and what follows them. -/
private theorem ReadsAll.mapped {α β : Type} (list element : Category) {lexemes : α → List Lexeme}
    {read : CommentIndex → Tree → β} {g : α → β} (hlist : list ≠ .document ∧ list ≠ .fieldId)
    (hone : [.category element] ∈ rightSides list) (hmore : [.category list, .category element] ∈ rightSides list)
    (hne : element ≠ list ∧ element ≠ .separator) (as : List α)
    (has : ∀ a ∈ as, Reads element (lexemes a) fun t => ∀ x, x.comments = [] → read x t = g a)
    (h : ReadsAll ss ls P) :
    ReadsAll (if as.isEmpty then ss else .category list :: ss) (as.flatMap lexemes ++ ls)
      (Optionally list (fun u => ∀ x : CommentIndex, x.comments = [] → ∀ t : Tree, t.child? list = u →
        (t.listed list).map (read x) = as.map g) P) := by
  have hlisted := h.listed list (fun _ => element) (r := fun x t => some (read x t)) hlist (fun _ => hone)
    (fun _ => hmore) (fun _ => hne) as fun a ha => (has a ha).imp fun t ht x hx => congrArg some (ht x hx)
  refine hlisted.imp fun ts => ?_
  rintro ⟨u, rest, rfl, hu, hread, hrest⟩
  exact ⟨u, rest, rfl, hu, fun x hx t ht => by rw [← hread x hx t ht, List.filterMap_eq_map'], hrest⟩

/-- Fields one after the other, perhaps none, and what follows them. -/
private theorem ReadsAll.fields {fs : List Field} (hfs : ∀ f ∈ fs, f.IsExpressible) (h : ReadsAll ss ls P) :
    ReadsAll (if fs.isEmpty then ss else .category .fields :: ss) (fs.flatMap Field.lexemes ++ ls)
      (Optionally .fields (fun u => ∀ x : CommentIndex, x.comments = [] → ∀ t : Tree, t.child? .fields = u →
        fieldsOf x t = fs.map Field.flat) P) :=
  h.mapped .fields .field (by decide) (by decide) (by decide) (by decide) fs fun f hf => reads_field f (hfs f hf)

end

/-! ### Declarations -/

private theorem reads_member (m : Member) (h : m.IsExpressible) :
    Reads .member m.lexemes fun t => ∀ x : CommentIndex, x.comments = [] → memberOf x t = m.flat := by
  obtain ⟨line, name, initializer, description⟩ := m
  cases initializer with
  | none =>
    refine Reads.node (ReadsAll.nil.name h.name) ?_ (by decide) (by decide)
    rintro _ hline ⟨token, _, rfl, ⟨hkind, htext⟩, rfl⟩ x hx
    simp [memberOf, Member.flat, leafText, hline, hkind, htext, descriptionOf_eq_none hx]
  | some l =>
    have hparts := ((ReadsAll.single (reads_int l (h.initializer l rfl))).fixed .equal rfl).name h.name
    refine Reads.node hparts ?_ (by decide) (by decide)
    rintro _ hline ⟨token, _, rfl, ⟨hkind, htext⟩, _, _, rfl, hequal, us, rfl, hus, -⟩ x hx
    simp [memberOf, Member.flat, leafText, hline, hkind, htext, hequal, hus, descriptionOf_eq_none hx]

/-- The category of a declaration with fields. -/
def StructForm.category : StructForm → Category
  | struct => .struct
  | union => .union
  | exception => .exception

private theorem reads_struct (s : Struct) (h : (Declaration.struct s).IsExpressible) :
    Reads s.form.category (Declaration.struct s).lexemes fun t => ∀ x : CommentIndex, x.comments = [] →
      definitionOf? x t = some (.declaration (Declaration.struct s).flat) := by
  have hparts := (((ReadsAll.nil.fixed .rightBrace rfl).fields h.2).fixed .leftBrace rfl).name h.1
  have hword : s.form.word.spelling?.isSome = true ∧ s.form.word ≠ .identifier := by cases s.form <;> decide
  refine (Reads.node (hparts.fixed s.form.word hword.1) ?_ ?_ (by cases s.form <;> decide)).congr
    (by simp [Declaration.lexemes])
  · rintro _ hline ⟨_, _, rfl, hfirst, _, _, rfl, ⟨hkind, htext⟩, _, _, rfl, hopen, u, _, rfl, hu, hfields, _, _, rfl,
      hclose, rfl⟩ x hx
    have hform : ∀ ts, definitionOf? x (.node s.form.category ts) =
        some (.declaration (.struct (structOf x s.form (.node s.form.category ts)))) := by
      intro ts
      cases s.form <;> rfl
    rw [hform]
    simp [structOf, Declaration.flat, hline, child?_toList hu, leaves_toList hu, leafText, hfirst, hword.2,
      hkind, htext, hopen, hclose, hfields x hx, descriptionOf_eq_none hx]
  · cases s.form <;> cases s.fields.isEmpty <;> decide

private theorem reads_enumeration (e : Enumeration) (h : (Declaration.enumeration e).IsExpressible) :
    Reads .enumeration (Declaration.enumeration e).lexemes fun t => ∀ x : CommentIndex, x.comments = [] →
      definitionOf? x t = some (.declaration (Declaration.enumeration e).flat) := by
  have hmembers := (ReadsAll.nil.fixed .rightBrace rfl).mapped .members .member (by decide) (by decide) (by decide)
    (by decide) e.members fun m hm => reads_member m (h.2 m hm)
  refine (Reads.node (((hmembers.fixed .leftBrace rfl).name h.1).fixed .kwEnum rfl) ?_ ?_ (by decide)).congr
    (by simp [Declaration.lexemes])
  · rintro _ hline ⟨_, _, rfl, hword, _, _, rfl, ⟨hkind, htext⟩, _, _, rfl, hopen, u, _, rfl, hu, hmembers, _, _, rfl,
      hclose, rfl⟩ x hx
    simp [definitionOf?, enumerationOf, Declaration.flat, hline, child?_toList hu, leaves_toList hu, leafText, hword,
      hkind, htext, hopen, hclose, hmembers x hx, descriptionOf_eq_none hx]
  · cases e.members.isEmpty <;> decide

private theorem reads_typedef (d : Typedef) (h : (Declaration.typedef d).IsExpressible) :
    Reads .typedef (Declaration.typedef d).lexemes fun t => ∀ x : CommentIndex, x.comments = [] →
      definitionOf? x t = some (.declaration (Declaration.typedef d).flat) := by
  obtain ⟨line, name, target, description⟩ := d
  have hparts := ((ReadsAll.nil.name h.1).tree (reads_type target h.2)).fixed .kwTypedef rfl
  refine (Reads.node hparts ?_ (by decide) (by decide)).congr (by simp [Declaration.lexemes])
  rintro _ hline ⟨_, _, rfl, hword, us, _, rfl, hus, _, _, rfl, ⟨hkind, htext⟩, rfl⟩ x hx
  simp [definitionOf?, typedefOf, Declaration.flat, hline, leafText, hword, hkind, htext, typeOf, hus,
    descriptionOf_eq_none hx]

private theorem reads_constant (c : Constant) (h : c.IsExpressible) :
    Reads .constant c.lexemes fun t => ∀ x : CommentIndex, x.comments = [] →
      definitionOf? x t = some (.constant c.flat) := by
  obtain ⟨line, name, type, value, description⟩ := c
  obtain ⟨v, rfl, hv⟩ := h.value
  have hvalue := ((ReadsAll.single (reads_value v hv)).fixed .equal rfl).name h.name
  refine (Reads.node ((hvalue.tree (reads_type type h.type)).fixed .kwConst rfl) ?_ (by decide) (by decide)).congr
    (by simp [Constant.lexemes])
  rintro _ hline ⟨_, _, rfl, hword, us, _, rfl, hus, _, _, rfl, ⟨hkind, htext⟩, _, _, rfl, hequal, vs, rfl, hvs⟩ x hx
  simp [definitionOf?, constantOf, Constant.flat, hline, leafText, hword, hkind, htext, hequal, typeOf, hus, valueOf,
    hvs, descriptionOf_eq_none hx]

/-! ### Services -/

private theorem reads_functionType (ty : TypeExpr) (h : ty.IsExpressible ∨ ty.IsVoid) :
    Reads .functionType ty.lexemes fun t => typesOf t = [ty.flat] := by
  rcases h with h | h
  · refine Reads.node (ReadsAll.single (reads_type ty h)) ?_ (by decide) (by decide)
    rintro _ - ⟨us, rfl, hus⟩
    rw [typesOf]
    simp [typesOfAll, hus]
  · obtain ⟨line, rfl⟩ : ∃ line, ty = .void line := by
      cases ty with
      | void line => exact ⟨line, rfl⟩
      | _ => exact h.elim
    have hvoid : Reads .voidType [.fixed .kwVoid] fun t => typesOf t = [.void 1] := by
      refine Reads.node (ReadsAll.nil.fixed .kwVoid rfl) ?_ (by decide) (by decide)
      rintro _ hline -
      rw [typesOf, hline]
    refine Reads.node (ReadsAll.single hvoid) ?_ (by decide) (by decide)
    rintro _ - ⟨us, rfl, hus⟩
    rw [typesOf]
    simp [typesOfAll, hus, TypeExpr.flat]

/-- The exceptions of a function, in brackets. -/
private theorem reads_throws {fs : List Field} (h : ∀ f ∈ fs, f.IsExpressible) :
    Reads .throws ([.fixed .kwThrows, .fixed .leftParen] ++ fs.flatMap Field.lexemes ++ [.fixed .rightParen]) fun t =>
      ∀ x : CommentIndex, x.comments = [] → fieldsOf x t = fs.map Field.flat := by
  have hparts := (((ReadsAll.nil.fixed .rightParen rfl).fields h).fixed .leftParen rfl).fixed .kwThrows rfl
  refine (Reads.node hparts ?_ ?_ (by decide)).congr (by simp)
  · rintro _ - ⟨_, _, rfl, -, _, _, rfl, -, u, _, rfl, hu, hfields, _, _, rfl, -, rfl⟩ x hx
    exact hfields x hx _ (by simp [child?_toList hu])
  · cases fs.isEmpty <;> decide

private theorem reads_oneway (oneway : Bool) :
    ReadsAll (if oneway then [.terminal .kwOneway] else []) (if oneway then [.fixed .kwOneway] else []) fun ts =>
      (ts = [] ∧ oneway = false) ∨ ∃ token, ts = [.leaf token] ∧ token.kind = .kwOneway ∧ oneway = true := by
  cases oneway with
  | false => exact ReadsAll.nil.imp fun ts hts => Or.inl ⟨hts, rfl⟩
  | true =>
    refine (ReadsAll.nil.fixed .kwOneway rfl).imp fun ts => ?_
    rintro ⟨token, _, rfl, hkind, rfl⟩
    exact Or.inr ⟨token, rfl, hkind, rfl⟩

/-- The exceptions of a function, if there are any. -/
def Function.thrown? (f : Function) : Option (List Field) := if f.throws = [] then none else some f.throws

private theorem mem_thrown? {f : Function} {fs : List Field} (h : fs ∈ f.thrown?) : fs = f.throws := by
  unfold Function.thrown? at h
  split at h
  · cases h
  · exact (Option.some.inj h).symm

/-- What is read from the tree of the exceptions, if there is one. -/
private theorem thrown_of_rel {f : Function} {x : CommentIndex} (hx : x.comments = []) {u : Option Tree}
    (h : Option.Rel (fun fs t => ∀ x : CommentIndex, x.comments = [] → fieldsOf x t = fs.map Field.flat) f.thrown? u) :
    u.elim [] (fieldsOf x) = f.throws.map Field.flat := by
  unfold Function.thrown? at h
  by_cases hnone : f.throws = []
  · rw [if_pos hnone] at h
    cases h
    rw [hnone]
    rfl
  · rw [if_neg hnone] at h
    cases h with
    | some hread => exact hread x hx

private theorem reads_function (f : Function) (h : f.IsExpressible) :
    Reads .function f.lexemes fun t => ∀ x : CommentIndex, x.comments = [] → functionOf x t = f.flat := by
  have hthrown := (ReadsAll.nil.optional (o := f.thrown?) fun fs hfs =>
    reads_throws (show ∀ g ∈ fs, g.IsExpressible from mem_thrown? hfs ▸ h.throws)).fixed .rightParen rfl
  have hrest := ((hthrown.fields h.arguments).fixed .leftParen rfl).name h.name
  have hparts := (reads_oneway f.oneway).append (hrest.tree (reads_functionType f.result h.result))
  refine (Reads.node hparts ?_ ?_ (by decide)).congr ?_
  · rintro _ hline ⟨front, _, rfl, honeway, us, _, rfl, hus, _, _, rfl, ⟨hkind, htext⟩, _, _, rfl, hopen, u, _, rfl, hu,
      hfields, _, _, rfl, hclose, v, _, rfl, hv, hthrows, rfl⟩ x hx
    have hthrows := thrown_of_rel hx hthrows
    rcases honeway with ⟨rfl, honeway⟩ | ⟨_, rfl, hword, honeway⟩
    · rw [List.nil_append] at hline ⊢
      simp [-List.append_nil, functionOf, Function.flat, hline, child?_toList hu, leaves_toList hu, child?_toList hv,
        leaves_toList hv, leafText, hkind, htext, hopen, hclose, typeOf, hus, hfields x hx, hthrows, honeway,
        descriptionOf_eq_none hx]
    · rw [List.cons_append, List.nil_append] at hline ⊢
      simp [-List.append_nil, functionOf, Function.flat, hline, child?_toList hu, leaves_toList hu, child?_toList hv,
        leaves_toList hv, leafText, hkind, htext, hopen, hclose, typeOf, hus, hfields x hx, hthrows, honeway, hword,
        descriptionOf_eq_none hx]
  · cases f.oneway <;> cases f.arguments.isEmpty <;> cases f.thrown?.isSome <;> decide
  · by_cases hnone : f.throws = [] <;> simp [Function.lexemes, Function.thrown?, hnone]

/-- The parent of a service behind its word, or nothing. -/
private theorem reads_parent {parent : Option String} (h : ∀ name ∈ parent, IsIdentifier name) :
    ReadsAll (if parent.isSome then [.terminal .kwExtends, .terminal .identifier] else [])
      (parent.elim [] fun name => [.fixed .kwExtends, .word .identifier name]) fun ts =>
        (ts = [] ∧ parent = none) ∨ ∃ word token name, ts = [.leaf word, .leaf token] ∧ word.kind = .kwExtends ∧
          token.kind = .identifier ∧ token.text = name ∧ parent = some name := by
  cases parent with
  | none => exact ReadsAll.nil.imp fun ts hts => Or.inl ⟨hts, rfl⟩
  | some name =>
    refine ((ReadsAll.nil.name (h name rfl)).fixed .kwExtends rfl).imp fun ts => ?_
    rintro ⟨word, _, rfl, hword, token, _, rfl, ⟨hkind, htext⟩, rfl⟩
    exact Or.inr ⟨word, token, name, rfl, hword, hkind, htext, rfl⟩

private theorem reads_service (s : Service) (h : s.IsExpressible) :
    Reads .service s.lexemes fun t => ∀ x : CommentIndex, x.comments = [] →
      definitionOf? x t = some (.service s.flat) := by
  have hfunctions := ((ReadsAll.nil.fixed .rightBrace rfl).mapped .functions .function (by decide) (by decide)
    (by decide) (by decide) s.functions fun f hf => reads_function f (h.functions f hf)).fixed .leftBrace rfl
  have hparts := (((reads_parent h.parent).append hfunctions).name h.name).fixed .kwService rfl
  refine (Reads.node hparts ?_ ?_ (by decide)).congr (by simp [Service.lexemes])
  · rintro _ hline ⟨_, _, rfl, hword, _, _, rfl, ⟨hkind, htext⟩, front, _, rfl, hparent, _, _, rfl, hopen, u, _,
      rfl, hu, hfunctions, _, _, rfl, hclose, rfl⟩ x hx
    rcases hparent with ⟨rfl, hparent⟩ | ⟨_, _, _, rfl, hextends, hkind', htext', hparent⟩
    · rw [List.nil_append] at hline ⊢
      simp [definitionOf?, serviceOf, Service.flat, hline, child?_toList hu, leaves_toList hu, leafText, hword, hkind,
        htext, hopen, hclose, hfunctions x hx, hparent, descriptionOf_eq_none hx]
    · rw [List.cons_append, List.cons_append, List.nil_append] at hline ⊢
      simp [definitionOf?, serviceOf, Service.flat, hline, child?_toList hu, leaves_toList hu, leafText, hword, hkind,
        htext, hextends, hkind', htext', hopen, hclose, hfunctions x hx, hparent, descriptionOf_eq_none hx]
  · cases s.parent.isSome <;> cases s.functions.isEmpty <;> decide

/-! ### Statements -/

/-- A kind of definition is a statement. -/
private theorem reads_definition {c : Category} {ls : List Lexeme} {s : Statement}
    (h : Reads c ls fun t => ∀ x : CommentIndex, x.comments = [] → definitionOf? x t = some s)
    (hc : [.category c] ∈ rightSides .definition) :
    Reads .definition ls fun t => ∀ x : CommentIndex, x.comments = [] → statementOf? x t = some s := by
  refine Reads.node (ReadsAll.single h) ?_ hc (by decide)
  rintro _ - ⟨us, rfl, hus⟩ x hx
  exact hus x hx

/-- The category of a statement. -/
def Statement.category : Statement → Category
  | inclusion .. => .inclusion
  | cppInclusion .. => .cppInclusion
  | scope .. => .scope
  | constant _ | declaration _ | service _ => .definition

private theorem reads_statement (s : Statement) (h : s.IsExpressible) :
    Reads s.category s.lexemes fun t => ∀ x : CommentIndex, x.comments = [] → statementOf? x t = some s.flat := by
  cases s with
  | inclusion line path =>
    refine Reads.node (c := .inclusion) ((ReadsAll.nil.quoted h).fixed .kwInclude rfl) ?_ (by decide) (by decide)
    rintro _ hline ⟨_, _, rfl, hword, _, _, rfl, ⟨hkind, htext⟩, rfl⟩ x hx
    simp [statementOf?, Statement.flat, leafText, hline, hword, hkind, htext]
  | cppInclusion line path =>
    refine Reads.node (c := .cppInclusion) ((ReadsAll.nil.quoted h).fixed .kwCppInclude rfl) ?_ (by decide) (by decide)
    rintro _ hline ⟨_, _, rfl, hword, _, _, rfl, ⟨hkind, htext⟩, rfl⟩ x hx
    simp [statementOf?, Statement.flat, leafText, hline, hword, hkind, htext]
  | scope line language name =>
    by_cases hstar : language = "*"
    · subst hstar
      have hparts := ((ReadsAll.nil.name h.2).fixed .star rfl).fixed .kwNamespace rfl
      refine Reads.node (c := .scope) hparts ?_ (by decide) (by decide)
      rintro _ hline ⟨_, _, rfl, hword, _, _, rfl, hstar, _, _, rfl, ⟨hkind, htext⟩, rfl⟩ x hx
      simp [statementOf?, Statement.flat, leafText, hline, hword, hstar, hkind, htext]
    · have hlanguage := h.1.resolve_left hstar
      have hparts := ((ReadsAll.nil.name h.2).name hlanguage).fixed .kwNamespace rfl
      refine (Reads.node (c := .scope) hparts ?_ (by decide) (by decide)).congr (by simp [Statement.lexemes, hstar])
      rintro _ hline ⟨_, _, rfl, hword, _, _, rfl, ⟨hkind, htext⟩, _, _, rfl, ⟨hkind', htext'⟩, rfl⟩ x hx
      simp [statementOf?, Statement.flat, leafText, hline, hword, hkind, htext, hkind', htext']
  | constant c => exact reads_definition (reads_constant c h) (by decide)
  | declaration d =>
    cases d with
    | struct s => exact reads_definition (reads_struct s h) (by cases s.form <;> decide)
    | enumeration e => exact reads_definition (reads_enumeration e h) (by decide)
    | typedef d => exact reads_definition (reads_typedef d h) (by decide)
  | service s => exact reads_definition (reads_service s h) (by decide)

/-! ### Documents -/

/-- The categories of statements. -/
private def statementCategories : List Category := [.inclusion, .cppInclusion, .scope, .definition]

private theorem Statement.category_mem (s : Statement) : s.category ∈ statementCategories := by
  cases s <;> simp [Statement.category, statementCategories]

private theorem reads_document (d : Document) (h : d.IsExpressible) (hne : d.body ≠ []) :
    Reads .document d.lexemes fun t => ∀ x : CommentIndex, x.comments = [] → Document.ofTree x t = d.flat := by
  have hone : ∀ c ∈ statementCategories, [.category c] ∈ rightSides .statements := by decide
  have hmore : ∀ c ∈ statementCategories, [.category .statements, .category c] ∈ rightSides .statements := by decide
  have helement : ∀ c ∈ statementCategories, c ≠ .statements ∧ c ≠ .separator := by decide
  have hstatements := ReadsAll.nil.listed .statements Statement.category (by decide)
    (fun s => hone _ s.category_mem) (fun s => hmore _ s.category_mem) (fun s => helement _ s.category_mem) d.body
    fun s hs => reads_statement s (h s hs)
  rw [if_neg (by simpa using hne), List.append_nil] at hstatements
  refine Reads.node_of_readable hstatements (by decide) (by simp) (fun _ _ => rfl) ?_
  rintro _ - ⟨u, _, rfl, hu, hread, rfl⟩ x hx
  have hbody := hread x hx (.node .document (u.toList ++ [])) (by simp [-List.append_nil, child?_toList hu])
  rw [Document.ofTree, hbody]
  rfl

/-- The empty text is the empty document. -/
private theorem parse_empty : parse "" = .ok { line := 1, body := [] } := by
  have hparse : parseTree "".toList = .ok ⟨.node .document [], []⟩ := run_nil takeAll_nil
  unfold parse
  rw [hparse]
  rfl

/-- The lexemes of a document of the grammar are sound. -/
private theorem isSound_of_mem_lexemes {d : Document} (hd : d.IsExpressible) {l : Lexeme} (hl : l ∈ d.lexemes) :
    l.IsSound := by
  by_cases hbody : d.body = []
  · simp [Document.lexemes, hbody] at hl
  · exact (reads_document d hd hbody).1 l hl

/-- A document as it has been written out is parsed as the document on one line, without descriptions; each lexeme
is written in any of its ways. -/
theorem parse_written {d : Document} (hd : d.IsExpressible) {pieces : List (Lexeme × String)}
    (hlexemes : pieces.map Prod.fst = d.lexemes) (hspells : ∀ p ∈ pieces, p.1.Spells p.2) :
    parse (" ".intercalate (pieces.map Prod.snd)) = .ok d.flat := by
  by_cases hbody : d.body = []
  · have hpieces : pieces = [] := by simpa [Document.lexemes, hbody] using hlexemes
    rw [hpieces, Document.flat, hbody]
    exact parse_empty
  · obtain ⟨hsound, hread⟩ := reads_document d hd hbody
    have hpieces : ∀ p ∈ pieces, p.1.IsSound ∧ p.1.Spells p.2 := fun p hp =>
      ⟨hsound p.1 (hlexemes ▸ List.mem_map_of_mem hp), hspells p hp⟩
    obtain ⟨hmap, hline⟩ := tokensFrom_stand hpieces .origin
    obtain ⟨ts, hderives, hreadable, htokens, hdocument⟩ := hread _ ⟨hmap.trans hlexemes, hline⟩
    have haccepts := accepts_of_derives hderives rfl
    rw [htokens] at haccepts
    have hne : pieces ≠ [] := by
      rintro rfl
      obtain ⟨token, toks, hcons, -⟩ := firstOf_root 0 [] _ hderives
      rw [htokens] at hcons
      cases hcons
    unfold parse
    rw [parseTree_spelled hpieces hne haccepts]
    dsimp only
    rw [if_pos hreadable]
    exact congrArg Except.ok (hdocument _ rfl)

/-- A document with names that begin with words of the grammar, both kinds of quotes, and fields that follow one another
with nothing between them. -/
def mixed : Document where
  line := 7
  body := [
    .inclusion 7 "it's.thrift",
    .scope 8 "*" "constant.names",
    .declaration (.struct {
      form := .struct, line := 9, name := "i32x", description := some "A point."
      fields := [
        ⟨10, "x", some (-2), some .required, .base 10 "i32", some (.int ⟨10, "0x1F", true⟩), none⟩,
        ⟨11, "tags", none, none, .list 11 (.named 11 "i32x"), some (.list 11 [.text 11 "\"", .double 11 "-1e5"]),
          none⟩] }),
    .service {
      line := 12, name := "Maps", parent := some "base.Root", description := none
      functions := [⟨12, "ping", .void 12, [], [⟨12, "e", some 1, none, .named 12 "Error", none, none⟩], true, none⟩] }]

theorem parse_written_mixed :
    mixed.IsExpressible ∧ parse ("include \"it's.thrift\" namespace * constant.names " ++
      "struct i32x \x7b -2 : required i32 x = 0x1F list < i32x > tags = [ '\"' -1e5 ] \x7d " ++
      "service Maps extends base.Root \x7b oneway void ping ( ) throws ( 1 : Error e ) \x7d") = .ok mixed.flat := by
  have hmixed : mixed.IsExpressible := by decide +kernel
  have hspells : ∀ p ∈ mixed.lexemes.map fun l => (l, l.spelling), p.1.Spells p.2 := by
    intro p hp
    obtain ⟨l, hl, rfl⟩ := List.mem_map.1 hp
    exact (isSound_of_mem_lexemes hmixed hl).spells
  have htext : " ".intercalate ((mixed.lexemes.map fun l => (l, l.spelling)).map Prod.snd) =
      "include \"it's.thrift\" namespace * constant.names " ++
        "struct i32x \x7b -2 : required i32 x = 0x1F list < i32x > tags = [ '\"' -1e5 ] \x7d " ++
        "service Maps extends base.Root \x7b oneway void ping ( ) throws ( 1 : Error e ) \x7d" := by decide +kernel
  have hlexemes : (mixed.lexemes.map fun l => (l, l.spelling)).map Prod.fst = mixed.lexemes := by
    simp [Function.comp_def]
  have hparse := parse_written hmixed hlexemes hspells
  rw [htext] at hparse
  exact ⟨hmixed, hparse⟩

end ThriftGateway.Idl
