import ThriftGateway.Graph.Scalar
import ThriftGateway.Proofs.Value.Nesting

/-!
# Plain forms

The plain form of a value is made of lists, of maps with different texts for keys and of the leaves of the value, at all
depths, and it is its own plain form.  So what is written for a map or a collection is written again as it is
(`plain_again`).  A value has a plain form unless a key in it, at some depth, has too long a text; and what is under a
key whose text comes again is not in the plain form (`not_plain_again_all`).
-/

namespace ThriftGateway.Graph

open Value (entryOf kept named names)

variable {u v w : Value}

/-! ### Plain values -/

/-- Leaves, lists of plain values, and maps of plain values with different texts for keys. -/
inductive IsPlain : Value → Prop
  | leaf {v : Value} (h : v.isLeaf = true) : IsPlain v
  | list {items : List Value} (h : ∀ v ∈ items, IsPlain v) : IsPlain (.list items)
  | map {fields : List (String × Value)} (hnames : (fields.map Prod.fst).Nodup) (h : ∀ f ∈ fields, IsPlain f.2) :
      IsPlain (.map (fields.map entryOf))

/-- A value with the plain one that it becomes: leaves stay, a collection becomes a list with one item for each of its
items, in order, and a map gets an entry for each text of a key, for what is under the last such key. -/
inductive Flattens : Value → Value → Prop
  | leaf {v : Value} (h : v.isLeaf = true) : Flattens v v
  | list {items items' : List Value} (h : List.Forall₂ Flattens items items') : Flattens (.list items) (.list items')
  | tuple {items items' : List Value} (h : List.Forall₂ Flattens items items') : Flattens (.tuple items) (.list items')
  | set {frozen : Bool} {items items' : List Value} (h : List.Forall₂ Flattens items items') :
      Flattens (.set frozen items) (.list items')
  | map {entries : List (Value × Value)} {fields : List (String × Value)}
      (hnames : fields.map Prod.fst = names (named entries))
      (h : List.Forall₂ Flattens ((kept (named entries)).map Prod.snd) (fields.map Prod.snd)) :
      Flattens (.map entries) (.map (fields.map entryOf))

/-! ### Keys that can be written -/

/-- A value in which no key of a map, at any depth, has too long a text. -/
def HasShortKeys (v : Value) : Prop := ∀ m, (Value.map m).Within v → ∀ e ∈ m, e.1.isWritable = true

theorem hasShortKeys_iff : HasShortKeys v ↔
    (∀ m, v = .map m → ∀ e ∈ m, e.1.isWritable = true) ∧ ∀ u ∈ v.children, HasShortKeys u := by
  unfold HasShortKeys
  simp only [Value.within_iff (v := v)]
  constructor
  · intro h
    exact ⟨fun m hm => h m (Or.inl hm.symm), fun u hu m hm => h m (Or.inr ⟨u, hu, hm⟩)⟩
  · rintro ⟨hself, h⟩ m (hm | ⟨u, hu, hm⟩)
    · exact hself m hm.symm
    · exact h u hu m hm

theorem hasShortKeys_iff_of_not_isMap (h : isMap v = false) :
    HasShortKeys v ↔ ∀ u ∈ v.children, HasShortKeys u := by
  refine hasShortKeys_iff.trans (and_iff_right fun m hm => ?_)
  rw [hm] at h
  cases h

theorem hasShortKeys_of_isLeaf (h : v.isLeaf = true) : HasShortKeys v := by
  refine hasShortKeys_iff.2 ⟨?_, ?_⟩
  · rintro m rfl
    cases h
  · cases v with
    | list | tuple | set | map => cases h
    | null | undefined | bool | int | float | text | thing => exact List.forall_mem_nil _

theorem hasShortKeys_map {entries : List (Value × Value)} : HasShortKeys (.map entries) ↔
    (∀ e ∈ entries, e.1.isWritable = true) ∧ ∀ e ∈ entries, HasShortKeys e.2 := by
  rw [hasShortKeys_iff, Value.children, List.forall_mem_map]
  refine and_congr_left fun _ => ⟨fun h => h entries rfl, ?_⟩
  rintro h m ⟨⟩
  exact h

/-! ### The plain form -/

mutual
/-- The plain form of a value as if all texts of keys could be written. -/
def flat : Value → Value
  | .map entries => Value.ofEntries (flatEntries entries)
  | .list items => .list (flatItems items)
  | .tuple items => .list (flatItems items)
  | .set _ items => .list (flatItems items)
  | v => v

/-- Such forms of several values. -/
def flatItems : List Value → List Value
  | [] => []
  | v :: vs => flat v :: flatItems vs

/-- Entries with texts as keys and such forms. -/
def flatEntries : List (Value × Value) → List (Value × Value)
  | [] => []
  | (k, v) :: es => (.text k.nameText, flat v) :: flatEntries es
end

/-- What becomes of something that has a plain form exactly if `P` holds. -/
def ComesTo {α : Type} (P : Prop) (r : Except ScalarError α) (a : α) : Prop :=
  P ∧ r = .ok a ∨ ¬ P ∧ r = .error .keyTooLong

theorem ComesTo.eq_ok {α : Type} {P : Prop} {r : Except ScalarError α} {a b : α} (h : ComesTo P r a) :
    r = .ok b ↔ P ∧ b = a := by
  rcases h with ⟨hP, rfl⟩ | ⟨hP, rfl⟩
  · simp [hP, eq_comm]
  · simp [hP]

theorem ComesTo.map {α β : Type} {P : Prop} {r : Except ScalarError α} {a : α} (f : α → β) (h : ComesTo P r a) :
    ComesTo P (r >>= fun x => pure (f x)) (f a) := by
  rcases h with ⟨hP, rfl⟩ | ⟨hP, rfl⟩
  · exact .inl ⟨hP, rfl⟩
  · exact .inr ⟨hP, rfl⟩

/-- Two results one after the other. -/
theorem ComesTo.both {α β γ : Type} {P Q : Prop} {r : Except ScalarError α} {r' : Except ScalarError β} {a : α} {b : β}
    (f : α → β → γ) (h : ComesTo P r a) (h' : ComesTo Q r' b) :
    ComesTo (P ∧ Q) (r >>= fun x => r' >>= fun y => pure (f x y)) (f a b) := by
  rcases h with ⟨hP, rfl⟩ | ⟨hP, rfl⟩
  · rcases h' with ⟨hQ, rfl⟩ | ⟨hQ, rfl⟩
    · exact .inl ⟨⟨hP, hQ⟩, rfl⟩
    · exact .inr ⟨fun h => hQ h.2, rfl⟩
  · exact .inr ⟨fun h => hP h.1, rfl⟩

private theorem plainItems_comes {items : List Value} (h : ∀ u ∈ items, ComesTo (HasShortKeys u) (plain u) (flat u)) :
    ComesTo (∀ u ∈ items, HasShortKeys u) (plainItems items) (flatItems items) := by
  induction items with
  | nil => exact .inl ⟨List.forall_mem_nil _, rfl⟩
  | cons v items ih =>
    rw [List.forall_mem_cons] at h
    rw [plainItems, flatItems, List.forall_mem_cons]
    exact h.1.both _ (ih h.2)

private theorem plainEntries_comes {entries : List (Value × Value)}
    (h : ∀ e ∈ entries, ComesTo (HasShortKeys e.2) (plain e.2) (flat e.2)) :
    ComesTo ((∀ e ∈ entries, e.1.isWritable = true) ∧ ∀ e ∈ entries, HasShortKeys e.2) (plainEntries entries)
      (flatEntries entries) := by
  induction entries with
  | nil => exact .inl ⟨⟨List.forall_mem_nil _, List.forall_mem_nil _⟩, rfl⟩
  | cons e entries ih =>
    obtain ⟨k, v⟩ := e
    rw [List.forall_mem_cons] at h
    rw [plainEntries, flatEntries, List.forall_mem_cons, List.forall_mem_cons]
    cases hk : k.isWritable with
    | false => exact .inr ⟨fun hall => Bool.false_ne_true hall.1.1, rfl⟩
    | true =>
      rcases h.1.both (fun w es => (Value.text k.nameText, w) :: es) (ih h.2) with ⟨⟨hv, hkeys, hes⟩, hr⟩ | ⟨hnot, hr⟩
      · exact .inl ⟨⟨⟨rfl, hkeys⟩, hv, hes⟩, hr⟩
      · exact .inr ⟨fun hall => hnot ⟨hall.2.1, hall.1.2, hall.2.2⟩, hr⟩

/-- A value has a plain form exactly if all texts of keys can be written. -/
theorem plain_comes (v : Value) : ComesTo (HasShortKeys v) (plain v) (flat v) := by
  induction v using Value.children_induction with
  | step v ih =>
    cases v with
    | list items | tuple items | set _ items =>
      rw [plain, flat, hasShortKeys_iff_of_not_isMap rfl]
      exact (plainItems_comes ih).map _
    | map entries =>
      rw [plain, flat, hasShortKeys_map]
      exact (plainEntries_comes fun e he => ih e.2 (List.mem_map_of_mem he)).map _
    | null | undefined | bool | int | float | text | thing =>
      exact .inl ⟨hasShortKeys_of_isLeaf rfl, by rw [plain, flat] <;> nofun⟩

theorem flat_of_isLeaf (h : v.isLeaf = true) : flat v = v := by
  cases v with
  | list | tuple | set | map => cases h
  | null | undefined | bool | int | float | text | thing => rw [flat] <;> nofun

theorem flatItems_eq_map (items : List Value) : flatItems items = items.map flat := by
  induction items with
  | nil => rfl
  | cons v items ih => rw [flatItems, ih, List.map_cons]

private theorem flatEntries_eq_map (entries : List (Value × Value)) :
    flatEntries entries = entries.map fun e => (.text e.1.nameText, flat e.2) := by
  induction entries with
  | nil => rfl
  | cons e entries ih => rw [flatEntries, ih, List.map_cons]

/-- Such a form of a map, by the fields that are kept. -/
theorem flat_map (entries : List (Value × Value)) :
    flat (.map entries) = .map (((kept (named entries)).map fun f => (f.1, flat f.2)).map entryOf) := by
  have hrecord : Value.ofEntries (flatEntries entries) = .record ((named entries).map fun f => (f.1, flat f.2)) := by
    rw [Value.record, flatEntries_eq_map, named, List.map_map, List.map_map]
    rfl
  rw [flat, hrecord, Value.record_eq_kept, Value.kept_map]

/-- What is kept of a map's fields is held by the map. -/
private theorem mem_children_of_mem_kept {entries : List (Value × Value)} {f : String × Value}
    (h : f ∈ kept (named entries)) : f.2 ∈ (Value.map entries).children := by
  have hmem : f.2 ∈ (named entries).map Prod.snd := List.mem_map_of_mem (Value.kept_subperm.subset h)
  rwa [Value.map_snd_named] at hmem

private theorem isPlain_flat (v : Value) : IsPlain (flat v) := by
  induction v using Value.children_induction with
  | step v ih =>
    have hitems : ∀ items, (∀ u ∈ items, IsPlain (flat u)) → IsPlain (.list (flatItems items)) := by
      intro items hitems
      rw [flatItems_eq_map]
      refine .list fun w hw => ?_
      obtain ⟨u, hu, rfl⟩ := List.mem_map.1 hw
      exact hitems u hu
    cases v with
    | list items | tuple items | set _ items =>
      rw [flat]
      exact hitems items ih
    | map entries =>
      rw [flat_map]
      refine .map ?_ fun g hg => ?_
      · rw [List.map_map]
        exact Value.map_fst_kept ▸ Value.nodup_names
      · obtain ⟨f, hf, rfl⟩ := List.mem_map.1 hg
        exact ih f.2 (mem_children_of_mem_kept hf)
    | null | undefined | bool | int | float | text | thing =>
      rw [flat_of_isLeaf rfl]
      exact .leaf rfl

/-- A flat value is its own flat form. -/
private theorem flat_of_isPlain (h : IsPlain v) : flat v = v := by
  induction h with
  | leaf h => exact flat_of_isLeaf h
  | list _ ih =>
    rw [flat, flatItems_eq_map, List.map_congr_left ih, List.map_id']
  | map hnames _ ih =>
    rw [flat_map, Value.named_map_entryOf, Value.kept_of_nodup hnames]
    have hsame : ∀ f ∈ _, (f.1, flat f.2) = f := fun f hf => by rw [ih f hf]
    rw [List.map_congr_left hsame, List.map_id']

/-! ### Item by item -/

/-- Lists are related item by item by a function exactly if the second is the image of the first. -/
private theorem forall₂_iff_eq_map {α β : Type} {R : α → β → Prop} {f : α → β} {xs : List α} {ys : List β}
    (h : ∀ x ∈ xs, ∀ y, R x y ↔ y = f x) : List.Forall₂ R xs ys ↔ ys = xs.map f := by
  induction xs generalizing ys with
  | nil => simp
  | cons x xs ih =>
    rw [List.forall_mem_cons] at h
    rw [List.forall₂_cons_left_iff, List.map_cons]
    constructor
    · rintro ⟨y, ys, hx, hxs, rfl⟩
      rw [(h.1 y).1 hx, (ih h.2).1 hxs]
    · rintro rfl
      exact ⟨_, _, (h.1 _).2 rfl, (ih h.2).2 rfl, rfl⟩

/-- Fields are known by their names and what they hold. -/
private theorem eq_of_map_eq {fields fields' : List (String × Value)}
    (hnames : fields.map Prod.fst = fields'.map Prod.fst)
    (hvalues : fields.map Prod.snd = fields'.map Prod.snd) : fields = fields' := by
  rw [← List.zip_unzip fields, ← List.zip_unzip fields']
  simp only [List.unzip_eq_map, hnames, hvalues]

private theorem flattens_items_iff {items items' : List Value} (ih : ∀ u ∈ items, ∀ w, Flattens u w ↔ w = flat u) :
    List.Forall₂ Flattens items items' ↔ Value.list items' = .list (flatItems items) := by
  rw [forall₂_iff_eq_map ih, flatItems_eq_map, Value.list.injEq]

private theorem flattens_map_iff {entries : List (Value × Value)}
    (ih : ∀ u ∈ (Value.map entries).children, ∀ w, Flattens u w ↔ w = flat u) :
    Flattens (.map entries) w ↔ w = flat (.map entries) := by
  have hkept : ∀ u ∈ (kept (named entries)).map Prod.snd, ∀ w, Flattens u w ↔ w = flat u := by
    intro u hu
    obtain ⟨f, hf, rfl⟩ := List.mem_map.1 hu
    exact ih f.2 (mem_children_of_mem_kept hf)
  have hnames : ((kept (named entries)).map fun f => (f.1, flat f.2)).map Prod.fst = names (named entries) := by
    rw [List.map_map, ← Value.map_fst_kept]
    rfl
  have hvalues : ((kept (named entries)).map fun f => (f.1, flat f.2)).map Prod.snd =
      ((kept (named entries)).map Prod.snd).map flat := by
    rw [List.map_map, List.map_map]
    rfl
  rw [flat_map]
  constructor
  · intro h
    cases h with
    | leaf h => cases h
    | map hnames' h =>
      have hvalues' := (forall₂_iff_eq_map hkept).1 h
      rw [eq_of_map_eq (hnames'.trans hnames.symm) (hvalues'.trans hvalues.symm)]
  · rintro rfl
    exact .map hnames ((forall₂_iff_eq_map hkept).2 hvalues)

/-- A value becomes its flat form and nothing else. -/
private theorem flattens_iff : Flattens v w ↔ w = flat v := by
  induction v using Value.children_induction generalizing w with
  | step v ih =>
    replace ih : ∀ u ∈ v.children, ∀ w, Flattens u w ↔ w = flat u := fun u hu _ => ih u hu
    cases v with
    | list items =>
      rw [flat]
      constructor
      · rintro (h | h)
        · cases h
        · exact (flattens_items_iff ih).1 h
      · rintro rfl
        exact .list ((flattens_items_iff ih).2 rfl)
    | tuple items =>
      rw [flat]
      constructor
      · rintro (h | _ | h)
        · cases h
        · exact (flattens_items_iff ih).1 h
      · rintro rfl
        exact .tuple ((flattens_items_iff ih).2 rfl)
    | set frozen items =>
      rw [flat]
      constructor
      · rintro (h | _ | _ | h)
        · cases h
        · exact (flattens_items_iff ih).1 h
      · rintro rfl
        exact .set ((flattens_items_iff ih).2 rfl)
    | map entries => exact flattens_map_iff ih
    | null | undefined | bool | int | float | text | thing =>
      rw [flat_of_isLeaf rfl]
      constructor
      · rintro ⟨⟩
        rfl
      · rintro rfl
        exact .leaf rfl

/-! ### Written again -/

/-- The keys of a plain value are texts, which can all be written. -/
private theorem hasShortKeys_of_isPlain (h : IsPlain v) : HasShortKeys v := by
  induction h with
  | leaf h => exact hasShortKeys_of_isLeaf h
  | list _ ih => exact (hasShortKeys_iff_of_not_isMap rfl).2 ih
  | map _ _ ih =>
    refine hasShortKeys_map.2 ⟨fun e he => ?_, fun e he => ?_⟩
    · obtain ⟨f, -, rfl⟩ := List.mem_map.1 he
      rfl
    · obtain ⟨f, hf, rfl⟩ := List.mem_map.1 he
      exact ih f hf

private theorem plain_eq_ok : plain v = .ok w ↔ HasShortKeys v ∧ Flattens v w := by
  rw [(plain_comes v).eq_ok, flattens_iff]

/-- A plain value is its own plain form. -/
private theorem plain_of_isPlain (h : IsPlain v) : plain v = .ok v :=
  (plain_comes v).eq_ok.2 ⟨hasShortKeys_of_isPlain h, (flat_of_isPlain h).symm⟩

/-- The form of a map is a map, and that of a collection is a collection. -/
private theorem isMap_flat (v : Value) : isMap (flat v) = isMap v ∧ isCollection (flat v) = isCollection v := by
  cases v with
  | map entries =>
    rw [flat_map]
    exact ⟨rfl, rfl⟩
  | list | tuple | set =>
    rw [flat]
    exact ⟨rfl, rfl⟩
  | null | undefined | bool | int | float | text | thing =>
    rw [flat_of_isLeaf rfl]
    exact ⟨rfl, rfl⟩

private theorem guarded_eq_ok {b : Bool} {r : Except ScalarError Value} {e : ScalarError} :
    (if b = true then r else .error e) = .ok w ↔ b = true ∧ r = .ok w := by
  cases b with
  | false => exact ⟨nofun, nofun⟩
  | true => exact ⟨fun h => ⟨rfl, h⟩, fun h => h.2⟩

/-- What a scalar writes for a map or a collection. -/
theorem output_eq_ok :
    (WideScalar.map.output v = .ok w ↔ isMap v = true ∧ HasShortKeys v ∧ w = flat v) ∧
    (WideScalar.set.output v = .ok w ↔ isCollection v = true ∧ HasShortKeys v ∧ w = flat v) := by
  rw [← (plain_comes v).eq_ok]
  exact ⟨guarded_eq_ok, guarded_eq_ok⟩

/-- A step that leaves its results as they are may be repeated. -/
private theorem bind_self {f : Value → Except ScalarError Value} (h : ∀ v w, f v = .ok w → f w = .ok w) (v : Value) :
    (f v).bind f = f v := by
  cases hv : f v with
  | error e => rfl
  | ok w => exact h v w hv

/-- A value in which all keys of maps, at all depths, can be written has a plain form, which keeps what can be kept and
is its own plain form; no other value has one.  Maps and collections with such keys, and nothing else, are written as
their plain forms, and what has been written is written again as it is. -/
theorem plain_again :
    (∀ v, HasShortKeys v → ∃ w, plain v = .ok w ∧ IsPlain w ∧ Flattens v w ∧ plain w = .ok w) ∧
    (∀ v, ¬ HasShortKeys v → plain v = .error .keyTooLong) ∧
    (∀ v w, WideScalar.map.output v = .ok w ↔ isMap v = true ∧ HasShortKeys v ∧ Flattens v w) ∧
    (∀ v w, WideScalar.set.output v = .ok w ↔ isCollection v = true ∧ HasShortKeys v ∧ Flattens v w) ∧
    (∀ v, (WideScalar.map.output v).bind WideScalar.map.output = WideScalar.map.output v) ∧
    (∀ v, (WideScalar.set.output v).bind WideScalar.set.output = WideScalar.set.output v) := by
  have hagain : ∀ v, HasShortKeys (flat v) ∧ flat v = flat (flat v) := fun v =>
    ⟨hasShortKeys_of_isPlain (isPlain_flat v), (flat_of_isPlain (isPlain_flat v)).symm⟩
  refine ⟨fun v h => ?_, fun v h => ?_, fun v w => ?_, fun v w => ?_, bind_self ?_, bind_self ?_⟩
  · exact ⟨flat v, (plain_comes v).eq_ok.2 ⟨h, rfl⟩, isPlain_flat v, flattens_iff.2 rfl,
      plain_of_isPlain (isPlain_flat v)⟩
  · exact (plain_comes v).resolve_left (fun hok => h hok.1) |>.2
  · rw [output_eq_ok.1, flattens_iff]
  · rw [output_eq_ok.2, flattens_iff]
  · intro v w h
    obtain ⟨hv, -, rfl⟩ := output_eq_ok.1.1 h
    exact output_eq_ok.1.2 ⟨(isMap_flat v).1.trans hv, hagain v⟩
  · intro v w h
    obtain ⟨hv, -, rfl⟩ := output_eq_ok.2.1 h
    exact output_eq_ok.2.2 ⟨(isMap_flat v).2.trans hv, hagain v⟩

/-- A map with keys of several kinds, over a tuple and a set, is written with texts for keys and lists. -/
theorem plain_again_mixed :
    let v : Value := .map [(.int 1, .tuple [.null, .set false [.text "a"]]), (.bool true, .list [])]
    let w : Value := .map [(.text "1", .list [.null, .list [.text "a"]]), (.text "True", .list [])]
    HasShortKeys v ∧ plain v = .ok w ∧ plain w = .ok w := by
  intro v w
  have hshort : HasShortKeys v := by
    refine hasShortKeys_map.2 ⟨by decide +kernel, ?_⟩
    simp only [List.forall_mem_cons]
    refine ⟨(hasShortKeys_iff_of_not_isMap rfl).2 ?_, (hasShortKeys_iff_of_not_isMap rfl).2 nofun, nofun⟩
    simp only [Value.children, List.forall_mem_cons]
    refine ⟨hasShortKeys_of_isLeaf rfl, (hasShortKeys_iff_of_not_isMap rfl).2 ?_, nofun⟩
    exact List.forall_mem_singleton.2 (hasShortKeys_of_isLeaf rfl)
  have hflat : w = flat v := by
    rw [flat_map]
    rfl
  have hplain : plain v = .ok w := (plain_comes v).eq_ok.2 ⟨hshort, hflat⟩
  obtain ⟨w', hw', -, -, hagain⟩ := plain_again.1 v hshort
  obtain rfl : w = w' := Except.ok.inj (hplain.symm.trans hw')
  exact ⟨hshort, hplain, hagain⟩

/-- The least positive integer with a digit more than a text may have is no key that can be written.  And a member of a
set that stands under the key `1` is lost if the key `"1"` comes behind it. -/
theorem not_plain_again_all :
    (¬ ∀ v, ∃ w, plain v = .ok w) ∧
    ¬ ∀ v w, plain v = .ok w → ∀ frozen items, (Value.set frozen items).Within v → ∀ u ∈ items, u.Within w := by
  constructor
  · intro h
    obtain ⟨w, hw⟩ := h (.map [(.int (Number.tenTo Number.digitLimit), .null)])
    have hkey := (hasShortKeys_map.1 (plain_eq_ok.1 hw).1).1 _ List.mem_cons_self
    have hlong : Number.isWritable (Number.tenTo Number.digitLimit) = false := by decide +kernel
    exact Bool.false_ne_true (hlong.symm.trans hkey)
  · intro h
    have hshort : HasShortKeys (.map [(.int 1, .set false [.int 5]), (.text "1", .text "b")]) := by
      refine hasShortKeys_map.2 ⟨by decide +kernel, ?_⟩
      simp only [List.forall_mem_cons]
      refine ⟨(hasShortKeys_iff_of_not_isMap rfl).2 ?_, hasShortKeys_of_isLeaf rfl, nofun⟩
      exact List.forall_mem_singleton.2 (hasShortKeys_of_isLeaf rfl)
    have hflat : flat (.map [(.int 1, .set false [.int 5]), (.text "1", .text "b")]) =
      .map [(.text "1", .text "b")] := by
      rw [flat_map]
      rfl
    have hin := h _ _ ((plain_comes _).eq_ok.2 ⟨hshort, hflat.symm⟩) false [.int 5] (.there List.mem_cons_self .here)
      (.int 5) List.mem_cons_self
    rcases Value.within_iff.1 hin with heq | ⟨w, hw, hin⟩
    · cases heq
    · obtain rfl := List.mem_singleton.1 hw
      rcases Value.within_iff.1 hin with heq | ⟨w, hw, -⟩
      · cases heq
      · cases hw

end ThriftGateway.Graph
