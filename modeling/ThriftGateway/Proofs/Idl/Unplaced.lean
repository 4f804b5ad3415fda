import ThriftGateway.Proofs.Idl.Steps
import ThriftGateway.Proofs.Idl.Expressions

/-!
# Trees without places

Where the tokens of a tree stand makes no difference to what the automaton does with it (`take_unplaced`), so runs on
the same text that differ in places end with trees that differ in places (`Parses.alike`); and only lines and
descriptions of a document depend on them (`flat_ofTree_unplaced`).
-/

namespace ThriftGateway.Idl

open Grammar (Position Token)

/-! ### Leaving places out -/

/-- A token at no place. -/
def unplacedToken (token : Token Terminal) : Token Terminal := { token with start := .origin, stop := .origin }

namespace Tree

mutual
/-- A tree whose tokens are at no place. -/
def unplaced : Tree → Tree
  | .leaf token => .leaf (unplacedToken token)
  | .node c ts => .node c (unplacedAll ts)

/-- Trees whose tokens are at no place. -/
def unplacedAll : List Tree → List Tree
  | [] => []
  | t :: ts => unplaced t :: unplacedAll ts
end

private theorem unplacedAll_eq_map (ts : List Tree) : unplacedAll ts = ts.map unplaced := by
  induction ts with
  | nil => rfl
  | cons t ts ih => rw [unplacedAll, ih, List.map_cons]

end Tree

/-- A stack whose trees are at no place. -/
def unplacedStack (stack : List Frame) : List Frame := stack.map fun f => (f.1, Tree.unplaced f.2)

/-- What is taken, with the trees at no place. -/
def Taken.unplaced : Taken → Taken
  | shift s stack => shift s (unplacedStack stack)
  | accept tree => accept (Tree.unplaced tree)
  | blocked s => blocked s

private theorem topState_unplacedStack (stack : List Frame) : topState (unplacedStack stack) = topState stack := by
  cases stack <;> rfl

section Taking

-- the table is not to be looked into
attribute [local irreducible] automaton states thrift productions Grammar.Automaton.action? Grammar.Automaton.move?

private theorem reduce_unplaced (stack : List Frame) (p : Grammar.Production Terminal Category) :
    reduce (unplacedStack stack) p = (reduce stack p).map unplacedStack := by
  have hdrop : (unplacedStack stack).drop p.symbols.length = unplacedStack (stack.drop p.symbols.length) := by
    unfold unplacedStack
    rw [List.map_drop]
  unfold reduce
  dsimp only
  rw [hdrop, topState_unplacedStack]
  cases automaton.move? thrift (topState (stack.drop p.symbols.length)) p.category with
  | none => rfl
  | some s =>
    have htrees : (((unplacedStack stack).take p.symbols.length).map (·.2)).reverse =
        Tree.unplacedAll ((stack.take p.symbols.length).map (·.2)).reverse := by
      rw [Tree.unplacedAll_eq_map]
      unfold unplacedStack
      simp [List.map_take, Function.comp_def]
    rw [htrees]
    rfl

theorem take_unplaced (fuel : Nat) (stack : List Frame) (k : Terminal) :
    take fuel (unplacedStack stack) k = (take fuel stack k).unplaced := by
  induction fuel generalizing stack with
  | zero =>
    show Taken.blocked (topState (unplacedStack stack)) = Taken.blocked (topState stack)
    rw [topState_unplacedStack]
  | succ fuel ih =>
    rw [take_succ, take_succ, topState_unplacedStack]
    cases automaton.action? thrift (topState stack) k with
    | none => rw [takeBy, takeBy, Taken.unplaced, topState_unplacedStack]
    | some a =>
      cases a with
      | shift s => rfl
      | accept => cases stack <;> rfl
      | reduce n =>
        rw [takeBy, takeBy, production_getElem?]
        cases productions[n]? with
        | none => rw [Option.bind_none, Option.bind_none, Taken.unplaced, topState_unplacedStack]
        | some p =>
          rw [Option.bind_some, Option.bind_some, reduce_unplaced]
          cases reduce stack p with
          | none => rw [Option.map_none, Taken.unplaced, topState_unplacedStack]
          | some stack' => exact ih stack'

end Taking

/-! ### Runs at other places -/

private theorem takeFuel_unplacedStack (stack : List Frame) : takeFuel (unplacedStack stack) = takeFuel stack := by
  unfold takeFuel unplacedStack
  rw [List.length_map]

/-- Stacks that are the same but for places take a terminal alike. -/
private theorem take_alike {stack stack' : List Frame} (h : unplacedStack stack = unplacedStack stack') (k : Terminal) :
    (take (takeFuel stack) stack k).unplaced = (take (takeFuel stack') stack' k).unplaced := by
  rw [← take_unplaced, ← take_unplaced, ← takeFuel_unplacedStack stack, ← takeFuel_unplacedStack stack', h]

section Runs

attribute [local irreducible] take takeFuel

/-- Parsers that stand alike but for places try the same. -/
theorem Progress.mode_eq_of_alike {p p' : Progress} (h : unplacedStack p.stack = unplacedStack p'.stack) :
    p'.mode = p.mode := by
  unfold Progress.mode
  rw [← topState_unplacedStack p'.stack, ← h, topState_unplacedStack]

/-- Parsers that stand alike but for places go on alike. -/
private theorem Progress.after?_alike {p p' q : Progress} (h : unplacedStack p.stack = unplacedStack p'.stack)
    {k : Terminal} {piece : List Char} (hafter : p.after? k piece = some q) :
    ∃ q', p'.after? k piece = some q' ∧ unplacedStack q.stack = unplacedStack q'.stack := by
  unfold Progress.after? at hafter ⊢
  split at hafter
  · rename_i hk
    obtain rfl := Option.some.inj hafter
    exact ⟨_, if_pos hk, h⟩
  · rename_i hk
    have htake := take_alike h k
    split at hafter
    · rename_i s stack heq
      obtain rfl := Option.some.inj hafter
      rw [heq] at htake
      cases heq' : take (takeFuel p'.stack) p'.stack k with
      | shift s' stack' =>
        rw [heq'] at htake
        obtain ⟨rfl, hstack⟩ := Taken.shift.inj htake
        refine ⟨_, if_neg hk, ?_⟩
        show (s, Tree.unplaced (.leaf _)) :: unplacedStack stack = (s, Tree.unplaced (.leaf _)) :: unplacedStack stack'
        rw [hstack]
        rfl
      | accept | blocked =>
        rw [heq'] at htake
        cases htake
    · cases hafter
    · cases hafter

/-- Runs on the same text from stacks that are the same but for places give trees that are the same but for places. -/
theorem Parses.alike {p p' : Progress} {cs : List Char} {r : Parsed} (hr : Parses p cs r)
    (h : unplacedStack p.stack = unplacedStack p'.stack) :
    ∃ r', Parses p' cs r' ∧ Tree.unplaced r.tree = Tree.unplaced r'.tree := by
  induction hr generalizing p' with
  | done heq =>
    have htake := take_alike h .stop
    rw [heq] at htake
    cases heq' : take (takeFuel p'.stack) p'.stack .stop with
    | accept tree =>
      rw [heq'] at htake
      exact ⟨_, .done heq', Taken.accept.inj htake⟩
    | shift | blocked =>
      rw [heq'] at htake
      cases htake
  | @step p q cs k n r hcut hafter _ ih =>
    obtain ⟨q', hafter', hstack⟩ := Progress.after?_alike h hafter
    obtain ⟨r', hr', htree⟩ := ih hstack
    rw [← Progress.mode_eq_of_alike h] at hcut
    exact ⟨r', .step hcut hafter' hr', htree⟩

end Runs

/-! ### Reading trees -/

namespace Tree

private theorem unplaced_children (t : Tree) : (unplaced t).children = t.children.map unplaced := by
  cases t with
  | leaf => rfl
  | node c ts => exact unplacedAll_eq_map ts

private theorem unplaced_child? (t : Tree) (c : Category) : (unplaced t).child? c = (t.child? c).map unplaced := by
  unfold Grammar.Tree.child?
  rw [unplaced_children, List.find?_map]
  refine congrArg (fun p => Option.map unplaced (List.find? p t.children)) (funext fun u => ?_)
  cases u <;> rfl

private theorem unplaced_leaves (t : Tree) : (unplaced t).leaves = t.leaves.map unplacedToken := by
  unfold Grammar.Tree.leaves
  rw [unplaced_children, List.filterMap_map, List.map_filterMap]
  refine congrArg (fun f => List.filterMap f t.children) (funext fun u => ?_)
  cases u <;> rfl

private theorem unplaced_leafText (t : Tree) (k : Terminal) (n : Nat) : (unplaced t).leafText k n = t.leafText k n := by
  unfold Grammar.Tree.leafText
  rw [unplaced_leaves, List.filter_map, List.getElem?_map]
  show ((((t.leaves.filter fun token => token.kind = k)[n]?).map unplacedToken).elim "" Token.text) = _
  cases (t.leaves.filter fun token => token.kind = k)[n]? <;> rfl

private theorem unplaced_any (t : Tree) (k : Terminal) :
    (unplaced t).leaves.any (·.kind = k) = t.leaves.any (·.kind = k) := by
  rw [unplaced_leaves, List.any_map]
  rfl

mutual
private theorem unplaced_elements (c : Category) : (t : Tree) → (unplaced t).elements c = (t.elements c).map unplaced
  | .leaf _ => rfl
  | .node d ts => by
    rw [unplaced, Grammar.Tree.elements, Grammar.Tree.elements]
    split
    · exact unplaced_elementsAll c ts
    · rfl

private theorem unplaced_elementsAll (c : Category) : (ts : List Tree) →
    Grammar.Tree.elementsAll c (unplacedAll ts) = (Grammar.Tree.elementsAll c ts).map unplaced
  | [] => rfl
  | t :: ts => by
    rw [unplacedAll, Grammar.Tree.elementsAll, Grammar.Tree.elementsAll, unplaced_elements c t,
      unplaced_elementsAll c ts, List.map_append]
end

private theorem unplaced_listed (t : Tree) (list : Category) :
    (unplaced t).listed list = (t.listed list).map unplaced := by
  unfold listed
  rw [unplaced_child?]
  cases t.child? list with
  | none => rfl
  | some u =>
    rw [Option.map_some, Option.elim_some, Option.elim_some, unplaced_elements, List.filter_map]
    refine congrArg (fun p => List.map unplaced (List.filter p (u.elements list))) (funext fun v => ?_)
    cases v <;> rfl

end Tree

/-! ### Types and constants -/

/-- Types that are the same but for lines have first types that are. -/
private theorem flat_headD {us vs : List TypeExpr} (h : us.map TypeExpr.flat = vs.map TypeExpr.flat) :
    (us.headD (.other none)).flat = (vs.headD (.other none)).flat := by
  cases us with
  | nil =>
    obtain rfl := List.map_eq_nil_iff.1 h.symm
    rfl
  | cons u us =>
    obtain ⟨v, vs, rfl, hv, -⟩ := List.map_eq_cons_iff.1 h.symm
    exact hv.symm

/-- Two types make a map, and other numbers of types a map of nothing. -/
private theorem flat_pair {l l' : Nat} {us vs : List TypeExpr} (h : us.map TypeExpr.flat = vs.map TypeExpr.flat) :
    (match us with
      | [k, v] => [TypeExpr.map l k v]
      | _ => [.map l (.other none) (.other none)]).map TypeExpr.flat =
    (match vs with
      | [k, v] => [TypeExpr.map l' k v]
      | _ => [.map l' (.other none) (.other none)]).map TypeExpr.flat := by
  match us, vs with
  | [], [] | [_], [_] | _ :: _ :: _ :: _, _ :: _ :: _ :: _ => rfl
  | [k, v], [k', v'] =>
    obtain ⟨hk, hv, -⟩ : k.flat = k'.flat ∧ v.flat = v'.flat ∧ True := by simpa using h
    simp [TypeExpr.flat, hk, hv]
  | [], _ :: _ | _ :: _, [] | [_], _ :: _ :: _ | _ :: _ :: _, [_] | [_, _], _ :: _ :: _ :: _
  | _ :: _ :: _ :: _, [_, _] => simp at h

mutual
private theorem flat_typesOf_unplaced : (t : Tree) →
    (typesOf (Tree.unplaced t)).map TypeExpr.flat = (typesOf t).map TypeExpr.flat
  | .leaf _ => rfl
  | .node c ts => by
    have hall := flat_typesOf_unplacedAll ts
    have htext := Tree.unplaced_leafText (.node c ts)
    cases c with
    | fieldType | functionType => exact hall
    | named => exact congrArg (fun text => [TypeExpr.named 1 text]) (htext .identifier 0)
    | base => exact congrArg (fun text => [TypeExpr.base 1 text]) (htext .baseType 0)
    | listType => exact congrArg (fun ty => [TypeExpr.list 1 ty]) (flat_headD hall)
    | setType => exact congrArg (fun ty => [TypeExpr.set 1 ty]) (flat_headD hall)
    | mapType => exact flat_pair hall
    | _ => rfl

private theorem flat_typesOf_unplacedAll : (ts : List Tree) →
    (typesOfAll (Tree.unplacedAll ts)).map TypeExpr.flat = (typesOfAll ts).map TypeExpr.flat
  | [] => rfl
  | t :: ts => by
    rw [Tree.unplacedAll, typesOfAll, typesOfAll, List.map_append, List.map_append, flat_typesOf_unplaced t,
      flat_typesOf_unplacedAll ts]
end

private theorem flat_intOf_unplaced (t : Tree) : (intOf (Tree.unplaced t)).flat = (intOf t).flat := by
  unfold intOf
  rw [Tree.unplaced_leaves]
  cases t.leaves <;> rfl

private theorem pairUp_map {α β : Type} (f : α → β) : (as : List α) → pairUp (as.map f) = (pairUp as).map (Prod.map f f)
  | [] | [_] => rfl
  | a :: b :: as => by
    show (f a, f b) :: pairUp (as.map f) = (f a, f b) :: (pairUp as).map (Prod.map f f)
    rw [pairUp_map f as]

mutual
private theorem flat_valuesOf_unplaced : (t : Tree) →
    (valuesOf (Tree.unplaced t)).map ConstValue.flat = (valuesOf t).map ConstValue.flat
  | .leaf _ => rfl
  | .node c ts => by
    have hall := flat_valuesOf_unplacedAll ts
    have htext := Tree.unplaced_leafText (.node c ts)
    cases c with
    | constValue | constItems | constEntries | constEntry => exact hall
    | intConstant => exact congrArg (fun l => [ConstValue.int l]) (flat_intOf_unplaced (.node .intConstant ts))
    | doubleConstant => exact congrArg (fun text => [ConstValue.double 1 text]) (htext .doubleConstant 0)
    | stringLiteral => exact congrArg (fun text => [ConstValue.text 1 (unquote text)]) (htext .literal 0)
    | boolLiteral => exact congrArg (fun b => [ConstValue.bool 1 b]) (Tree.unplaced_any (.node .boolLiteral ts) .kwTrue)
    | named => exact congrArg (fun text => [ConstValue.named 1 text]) (htext .identifier 0)
    | constList =>
      show [ConstValue.list 1 (ConstValue.flatAll _)] = [ConstValue.list 1 (ConstValue.flatAll _)]
      rw [flatAll_eq, flatAll_eq, hall]
    | constMap =>
      show [ConstValue.map 1 (ConstValue.flatEntries _)] = [ConstValue.map 1 (ConstValue.flatEntries _)]
      rw [flatEntries_eq, flatEntries_eq]
      have hpairs := congrArg pairUp hall
      rw [pairUp_map, pairUp_map] at hpairs
      exact congrArg (fun entries => [ConstValue.map 1 entries]) hpairs
    | _ => rfl

private theorem flat_valuesOf_unplacedAll : (ts : List Tree) →
    (valuesOfAll (Tree.unplacedAll ts)).map ConstValue.flat = (valuesOfAll ts).map ConstValue.flat
  | [] => rfl
  | t :: ts => by
    rw [Tree.unplacedAll, valuesOfAll, valuesOfAll, List.map_append, List.map_append, flat_valuesOf_unplaced t,
      flat_valuesOf_unplacedAll ts]
end

private theorem flat_typeOf_unplaced (t : Option Tree) : (typeOf (t.map Tree.unplaced)).flat = (typeOf t).flat := by
  cases t with
  | none => rfl
  | some t => exact flat_headD (flat_typesOf_unplaced t)

private theorem flat_valueOf_unplaced (t : Option Tree) :
    (valueOf (t.map Tree.unplaced)).map ConstValue.flat = (valueOf t).map ConstValue.flat := by
  cases t with
  | none => rfl
  | some t =>
    show (valuesOf (Tree.unplaced t)).head?.map ConstValue.flat = (valuesOf t).head?.map ConstValue.flat
    rw [← List.head?_map, flat_valuesOf_unplaced, List.head?_map]

/-! ### Declarations and documents -/

section

variable (x x' : CommentIndex)

private theorem fieldIdOf_unplaced (t : Tree) : fieldIdOf (Tree.unplaced t) = fieldIdOf t := by
  unfold fieldIdOf
  rw [Tree.unplaced_leafText]

private theorem requirednessOf_unplaced (t : Tree) : requirednessOf (Tree.unplaced t) = requirednessOf t := by
  unfold requirednessOf
  rw [Tree.unplaced_any]

private theorem flat_fieldOf_unplaced (t : Tree) : (fieldOf x' (Tree.unplaced t)).flat = (fieldOf x t).flat := by
  simp [fieldOf, Field.flat, Tree.unplaced_leafText, Tree.unplaced_child?, flat_typeOf_unplaced, flat_valueOf_unplaced,
    Option.bind_map, Function.comp_def, fieldIdOf_unplaced, requirednessOf_unplaced]

/-- What children are read as, if each is read alike but for places. -/
private theorem map_listed_unplaced {α β : Type} {f : CommentIndex → Tree → α} {g : α → β}
    (h : ∀ t, g (f x' (Tree.unplaced t)) = g (f x t)) (t : Tree) (list : Category) :
    (((Tree.unplaced t).listed list).map (f x')).map g = ((t.listed list).map (f x)).map g := by
  rw [Tree.unplaced_listed, List.map_map, List.map_map, List.map_map]
  exact List.map_congr_left fun u _ => h u

private theorem flat_fieldsOf_unplaced (t : Tree) :
    (fieldsOf x' (Tree.unplaced t)).map Field.flat = (fieldsOf x t).map Field.flat :=
  map_listed_unplaced x x' (flat_fieldOf_unplaced x x') t .fields

private theorem flat_memberOf_unplaced (t : Tree) : (memberOf x' (Tree.unplaced t)).flat = (memberOf x t).flat := by
  simp [memberOf, Member.flat, Tree.unplaced_leafText, Tree.unplaced_child?, Function.comp_def, flat_intOf_unplaced]

private theorem flat_functionOf_unplaced (t : Tree) :
    (functionOf x' (Tree.unplaced t)).flat = (functionOf x t).flat := by
  have hthrows : (((Tree.unplaced t).child? .throws).elim [] (fieldsOf x')).map Field.flat =
      ((t.child? .throws).elim [] (fieldsOf x)).map Field.flat := by
    rw [Tree.unplaced_child?]
    cases t.child? .throws with
    | none => rfl
    | some u => exact flat_fieldsOf_unplaced x x' u
  have hfields := flat_fieldsOf_unplaced x x' t
  unfold functionOf Function.flat
  dsimp only
  rw [hthrows, hfields, Tree.unplaced_leafText, Tree.unplaced_child?, flat_typeOf_unplaced, Tree.unplaced_any]

private theorem flat_serviceOf_unplaced (t : Tree) : (serviceOf x' (Tree.unplaced t)).flat = (serviceOf x t).flat := by
  have hfunctions := map_listed_unplaced x x' (flat_functionOf_unplaced x x') t .functions
  unfold serviceOf Service.flat
  dsimp only
  rw [hfunctions, Tree.unplaced_leafText, Tree.unplaced_leafText, Tree.unplaced_any]

private theorem flat_constantOf_unplaced (t : Tree) :
    (constantOf x' (Tree.unplaced t)).flat = (constantOf x t).flat := by
  simp [constantOf, Constant.flat, Tree.unplaced_leafText, Tree.unplaced_child?, flat_typeOf_unplaced,
    flat_valueOf_unplaced]

/-- A struct, union or exception is read alike but for places. -/
private theorem flat_structOf_unplaced (form : StructForm) (t : Tree) :
    (Declaration.struct (structOf x' form (Tree.unplaced t))).flat =
      (Declaration.struct (structOf x form t)).flat := by
  have hfields := flat_fieldsOf_unplaced x x' t
  unfold structOf Declaration.flat
  dsimp only
  rw [hfields, Tree.unplaced_leafText]

private theorem flat_enumerationOf_unplaced (t : Tree) :
    (Declaration.enumeration (enumerationOf x' (Tree.unplaced t))).flat =
      (Declaration.enumeration (enumerationOf x t)).flat := by
  have hmembers := map_listed_unplaced x x' (flat_memberOf_unplaced x x') t .members
  unfold enumerationOf Declaration.flat
  dsimp only
  rw [hmembers, Tree.unplaced_leafText]

private theorem flat_typedefOf_unplaced (t : Tree) :
    (Declaration.typedef (typedefOf x' (Tree.unplaced t))).flat = (Declaration.typedef (typedefOf x t)).flat := by
  simp [typedefOf, Declaration.flat, Tree.unplaced_leafText, Tree.unplaced_child?, flat_typeOf_unplaced]

private theorem flat_definitionOf?_unplaced (t : Tree) :
    (definitionOf? x' (Tree.unplaced t)).map Statement.flat = (definitionOf? x t).map Statement.flat := by
  cases t with
  | leaf => rfl
  | node c ts =>
    cases c with
    | constant =>
      exact congrArg (fun d => some (Statement.constant d)) (flat_constantOf_unplaced x x' (.node .constant ts))
    | typedef =>
      exact congrArg (fun d => some (Statement.declaration d)) (flat_typedefOf_unplaced x x' (.node .typedef ts))
    | enumeration =>
      exact congrArg (fun d => some (Statement.declaration d))
        (flat_enumerationOf_unplaced x x' (.node .enumeration ts))
    | struct =>
      exact congrArg (fun d => some (Statement.declaration d)) (flat_structOf_unplaced x x' .struct (.node .struct ts))
    | union =>
      exact congrArg (fun d => some (Statement.declaration d)) (flat_structOf_unplaced x x' .union (.node .union ts))
    | exception =>
      exact congrArg (fun d => some (Statement.declaration d))
        (flat_structOf_unplaced x x' .exception (.node .exception ts))
    | service =>
      exact congrArg (fun d => some (Statement.service d)) (flat_serviceOf_unplaced x x' (.node .service ts))
    | _ => rfl

private theorem flat_statementOf?_unplaced (t : Tree) :
    (statementOf? x' (Tree.unplaced t)).map Statement.flat = (statementOf? x t).map Statement.flat := by
  cases t with
  | leaf => rfl
  | node c ts =>
    have htext := Tree.unplaced_leafText (.node c ts)
    cases c with
    | inclusion => exact congrArg (fun text => some (Statement.inclusion 1 (unquote text))) (htext .literal 0)
    | cppInclusion => exact congrArg (fun text => some (Statement.cppInclusion 1 (unquote text))) (htext .literal 0)
    | scope =>
      have hstar := Tree.unplaced_any (.node .scope ts) .star
      have hlanguage := htext .identifier 0
      have hname := htext .identifier 1
      rw [Tree.unplaced] at hstar hlanguage hname ⊢
      unfold statementOf?
      dsimp only
      rw [hstar]
      split
      · exact congrArg (fun text => some (Statement.scope 1 "*" text)) hlanguage
      · rw [hlanguage, hname]
        rfl
    | definition =>
      cases ts with
      | nil => rfl
      | cons d ts =>
        cases ts with
        | nil => exact flat_definitionOf?_unplaced x x' d
        | cons => rfl
    | _ => rfl

/-- Documents read from trees that are the same but for places are the same but for lines and descriptions. -/
theorem flat_ofTree_unplaced (t : Tree) :
    (Document.ofTree x' (Tree.unplaced t)).flat = (Document.ofTree x t).flat := by
  unfold Document.ofTree Document.flat
  dsimp only
  rw [Tree.unplaced_listed, List.map_filterMap, List.map_filterMap, List.filterMap_map]
  refine congrArg (fun f => Document.mk 1 (List.filterMap f (t.listed .statements)) none) (funext fun u => ?_)
  exact flat_statementOf?_unplaced x x' u

end

mutual
theorem numbersReadable_unplaced : (t : Tree) → numbersReadable (Tree.unplaced t) = numbersReadable t
  | .leaf _ => rfl
  | .node c ts => by
    have hall := numbersReadableAll_unplaced ts
    have hid := fieldIdOf_unplaced (.node c ts)
    rw [Tree.unplaced] at hid ⊢
    rw [numbersReadable, numbersReadable, hid, hall]

private theorem numbersReadableAll_unplaced : (ts : List Tree) →
    numbersReadableAll (Tree.unplacedAll ts) = numbersReadableAll ts
  | [] => rfl
  | t :: ts => by
    rw [Tree.unplacedAll, numbersReadableAll, numbersReadableAll, numbersReadable_unplaced t,
      numbersReadableAll_unplaced ts]
end

end ThriftGateway.Idl
