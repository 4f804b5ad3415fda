import Mathlib.Algebra.GroupWithZero.Nat
import Mathlib.Algebra.Order.BigOperators.Group.List
import Mathlib.Algebra.Order.Group.Nat
import ThriftGateway.Proofs.Graph.Plain
import ThriftGateway.Proofs.Number.Reading

/-!
# Entries that are lost

Maps are written with the texts of their keys, so entries whose keys have one text become one entry, with what the last
of them holds.  Every map in an answer has one entry for each different text, and nothing is lost at any depth exactly
if the keys of no map at any depth have one text (`output_map_entries`).
-/

namespace ThriftGateway.Graph

open Value (Place Within entryCount entryOf kept keyTexts named names)

variable {u v w : Value} {entries : List (Value × Value)}

/-! ### What is at a place -/

/-- The flat form has at each place the flat form of what was there. -/
private theorem child?_flat (v : Value) (p : Place) : (flat v).child? p = (v.child? p).map flat := by
  have hitems : ∀ (items : List Value) (i : Nat), (flatItems items)[i]? = items[i]?.map flat := by
    intro items i
    rw [flatItems_eq_map, List.getElem?_map]
  cases v with
  | list items | tuple items | set _ items =>
    rw [flat]
    cases p with
    | item i => exact hitems items i
    | entry name => rfl
  | map entries =>
    cases p with
    | item i =>
      rw [flat_map]
      rfl
    | entry name =>
      have hnodup : (((kept (named entries)).map fun f => (f.1, flat f.2)).map Prod.fst).Nodup := by
        rw [List.map_map]
        exact Value.map_fst_kept ▸ Value.nodup_names
      rw [flat_map, Value.child?, Value.child?, Value.named_map_entryOf]
      ext w
      rw [← Value.mem_kept, Value.kept_of_nodup hnodup, Option.map_eq_some_iff, List.mem_map]
      constructor
      · rintro ⟨⟨name, u⟩, hu, ⟨⟩⟩
        exact ⟨u, Value.mem_kept.1 hu, rfl⟩
      · rintro ⟨u, hu, rfl⟩
        exact ⟨(name, u), Value.mem_kept.2 hu, rfl⟩
  | null | undefined | bool | int | float | text | thing =>
    rw [flat_of_isLeaf rfl]
    rfl

private theorem at?_flat (v : Value) (places : List Place) : (flat v).at? places = (v.at? places).map flat := by
  induction places generalizing v with
  | nil => rfl
  | cons p places ih =>
    rw [Value.at?, Value.at?, child?_flat]
    cases v.child? p with
    | none => rfl
    | some u => exact ih u

/-- What is at a place of a value has no key that the value does not have. -/
private theorem HasShortKeys.at? (h : HasShortKeys v) {places : List Place} (hu : v.at? places = some u) :
    HasShortKeys u := by
  induction places generalizing v with
  | nil =>
    obtain rfl := Option.some.inj hu
    exact h
  | cons p places ih =>
    obtain ⟨w, hw, hu⟩ := Option.bind_eq_some_iff.1 hu
    exact ih ((hasShortKeys_iff.1 h).2 w (Value.mem_children_of_child? hw)) hu

/-! ### How many entries there are -/

/-- The flat form of a map has one entry for each different text of a key. -/
private theorem exists_flat_map (entries : List (Value × Value)) :
    ∃ fields : List (String × Value), flat (.map entries) = .map (fields.map entryOf) ∧
      fields.map Prod.fst = (keyTexts entries).eraseDups ∧
      (fields.length = entries.length ↔ (keyTexts entries).Nodup) := by
  refine ⟨_, flat_map entries, ?_, ?_⟩
  · rw [List.map_map, ← Value.map_fst_named]
    exact Value.map_fst_kept
  · rw [List.length_map, ← Value.map_fst_named, ← Value.length_kept_iff, named, List.length_map]

/-- If one function is at most the other everywhere in a list then their sums are equal exactly if they are. -/
private theorem sum_map_le {α : Type} {f g : α → Nat} {xs : List α} (h : ∀ x ∈ xs, f x ≤ g x) :
    (xs.map f).sum ≤ (xs.map g).sum ∧ ((xs.map f).sum = (xs.map g).sum ↔ ∀ x ∈ xs, f x = g x) := by
  induction xs with
  | nil => simp
  | cons x xs ih =>
    rw [List.forall_mem_cons] at h
    obtain ⟨hle, hiff⟩ := ih h.2
    have hx := h.1
    rw [List.map_cons, List.map_cons, List.sum_cons, List.sum_cons, List.forall_mem_cons, ← hiff]
    omega

private theorem sum_map_le_of_subperm {α : Type} {f : α → Nat} {xs ys : List α} (h : xs.Subperm ys) :
    (xs.map f).sum ≤ (ys.map f).sum := by
  obtain ⟨zs, hperm, hsub⟩ := h
  calc (xs.map f).sum = (zs.map f).sum := (hperm.map f).sum_nat.symm
    _ ≤ (ys.map f).sum := (hsub.map f).sum_le_sum fun _ _ => Nat.zero_le _

/-- A value in which no map has two keys with one text. -/
def HasDistinctTexts (v : Value) : Prop := ∀ m, (Value.map m).Within v → (keyTexts m).Nodup

private theorem hasDistinctTexts_iff : HasDistinctTexts v ↔
    (∀ m, v = .map m → (keyTexts m).Nodup) ∧ ∀ u ∈ v.children, HasDistinctTexts u := by
  unfold HasDistinctTexts
  simp only [Value.within_iff (v := v)]
  constructor
  · intro h
    exact ⟨fun m hm => h m (Or.inl hm.symm), fun u hu m hm => h m (Or.inr ⟨u, hu, hm⟩)⟩
  · rintro ⟨hself, h⟩ m (hm | ⟨u, hu, hm⟩)
    · exact hself m hm.symm
    · exact h u hu m hm

private theorem hasDistinctTexts_iff_of_not_isMap (h : isMap v = false) :
    HasDistinctTexts v ↔ ∀ u ∈ v.children, HasDistinctTexts u := by
  refine hasDistinctTexts_iff.trans (and_iff_right fun m hm => ?_)
  rw [hm] at h
  cases h

/-- In a map no text is repeated exactly if all of its fields are kept. -/
private theorem hasDistinctTexts_map : HasDistinctTexts (.map entries) ↔
    (kept (named entries)).length = (named entries).length ∧ ∀ f ∈ named entries, HasDistinctTexts f.2 := by
  rw [hasDistinctTexts_iff, Value.length_kept_iff, Value.map_fst_named, Value.children, ← Value.map_snd_named,
    List.forall_mem_map]
  refine and_congr_left fun _ => ⟨fun h => h entries rfl, ?_⟩
  rintro h m ⟨⟩
  exact h

private theorem itemsEntryCount_eq_sum (items : List Value) :
    Value.itemsEntryCount items = (items.map entryCount).sum := by
  induction items with
  | nil => rfl
  | cons v items ih => rw [Value.itemsEntryCount, ih, List.map_cons, List.sum_cons]

private theorem entryCount_map (entries : List (Value × Value)) : entryCount (.map entries) =
    (named entries).length + ((named entries).map fun f => entryCount f.2).sum := by
  rw [entryCount]
  induction entries with
  | nil => rfl
  | cons e entries ih =>
    rw [Value.entriesEntryCount, ih, Value.named_cons, List.length_cons, List.map_cons, List.sum_cons]
    dsimp only
    omega

private theorem entryCount_flat_map (entries : List (Value × Value)) : entryCount (flat (.map entries)) =
    (kept (named entries)).length + ((kept (named entries)).map fun f => entryCount (flat f.2)).sum := by
  rw [flat_map, entryCount_map, Value.named_map_entryOf, List.length_map, List.map_map]
  rfl

/-- The flat form of the value has no more entries, and as many only if no texts of keys are repeated. -/
def Counts (v : Value) : Prop :=
  entryCount (flat v) ≤ entryCount v ∧ (entryCount (flat v) = entryCount v ↔ HasDistinctTexts v)

private theorem counts_items {items : List Value} (h : ∀ u ∈ items, Counts u) :
    Value.itemsEntryCount (flatItems items) ≤ Value.itemsEntryCount items ∧
      (Value.itemsEntryCount (flatItems items) = Value.itemsEntryCount items ↔ ∀ u ∈ items, HasDistinctTexts u) := by
  obtain ⟨hle, hiff⟩ := sum_map_le fun u hu => (h u hu).1
  rw [flatItems_eq_map, itemsEntryCount_eq_sum, itemsEntryCount_eq_sum, List.map_map]
  exact ⟨hle, hiff.trans (forall₂_congr fun u hu => (h u hu).2)⟩

private theorem counts_map (h : ∀ u ∈ (Value.map entries).children, Counts u) : Counts (.map entries) := by
  have hfields : ∀ f ∈ named entries, Counts f.2 := by
    intro f hf
    apply h
    rw [Value.children, ← Value.map_snd_named]
    exact List.mem_map_of_mem hf
  obtain ⟨hle, hiff⟩ := sum_map_le fun f hf => (hfields f hf).1
  have hchildren : (∀ f ∈ named entries, HasDistinctTexts f.2) ↔
      ((named entries).map fun f => entryCount (flat f.2)).sum = ((named entries).map fun f => entryCount f.2).sum :=
    (hiff.trans (forall₂_congr fun f hf => (hfields f hf).2)).symm
  -- what is not kept makes both summands smaller or leaves them
  have hsub : (kept (named entries)).Subperm (named entries) := Value.kept_subperm
  have hlength := hsub.length_le
  have hkept := sum_map_le_of_subperm (f := fun f => entryCount (flat f.2)) hsub
  rw [Counts, entryCount_flat_map, entryCount_map, hasDistinctTexts_map, hchildren]
  refine ⟨by omega, fun heq => by omega, ?_⟩
  rintro ⟨hnodup, hsum⟩
  rw [Value.kept_of_nodup (Value.length_kept_iff.1 hnodup), hsum]

private theorem counts (v : Value) : Counts v := by
  induction v using Value.children_induction with
  | step v ih =>
    cases v with
    | list items | tuple items | set _ items =>
      rw [Counts, flat, entryCount, entryCount, hasDistinctTexts_iff_of_not_isMap rfl]
      exact counts_items ih
    | map entries => exact counts_map ih
    | null | undefined | bool | int | float | text | thing =>
      rw [Counts, flat_of_isLeaf rfl, hasDistinctTexts_iff_of_not_isMap rfl]
      exact ⟨le_rfl, iff_of_true rfl (List.forall_mem_nil _)⟩

/-! ### Keys of one kind -/

/-- Entries with different keys. -/
def HasDistinctKeys (entries : List (Value × Value)) : Prop := entries.Pairwise fun e e' => Value.same e.1 e'.1 = false

/-- Entries with keys that are all texts, all integers or all truth values. -/
inductive OneKind : List (Value × Value) → Prop
  | texts (fields : List (String × Value)) : OneKind (fields.map fun f => (.text f.1, f.2))
  | integers (fields : List (Int × Value)) : OneKind (fields.map fun f => (.int f.1, f.2))
  | truthValues (fields : List (Bool × Value)) : OneKind (fields.map fun f => (.bool f.1, f.2))

/-- Keys of a kind in which no two have one text. -/
private theorem nodup_keyTexts_of_injective {α : Type} {key : α → Value}
    (hinj : Function.Injective fun a => (key a).nameText)
    (hself : ∀ a, Value.same (key a) (key a) = true) {fields : List (α × Value)}
    (h : HasDistinctKeys (fields.map fun f => (key f.1, f.2))) :
    (keyTexts (fields.map fun f => (key f.1, f.2))).Nodup := by
  rw [keyTexts, List.map_map]
  refine List.pairwise_map.2 ((List.pairwise_map.1 h).imp fun {f g} hfg heq => ?_)
  obtain hkey : f.1 = g.1 := hinj heq
  rw [hkey, hself] at hfg
  cases hfg

private theorem nameText_int_injective : Function.Injective fun n : Int => (Value.int n).nameText :=
  fun _ _ h => Number.decimal_injective h

private theorem nameText_bool_injective : Function.Injective fun b : Bool => (Value.bool b).nameText := by
  intro a b h
  cases a <;> cases b <;> first | rfl | exact absurd h (by decide)

/-- Different keys of one kind have different texts. -/
private theorem nodup_keyTexts (hkind : OneKind entries) (h : HasDistinctKeys entries) : (keyTexts entries).Nodup := by
  cases hkind with
  | texts fields => exact nodup_keyTexts_of_injective (fun _ _ => id) (fun s => by simp [Value.same]) h
  | integers fields =>
    exact nodup_keyTexts_of_injective nameText_int_injective
      (fun n => by simp [Value.same, Value.sameNumber, Value.integer?]) h
  | truthValues fields =>
    exact nodup_keyTexts_of_injective nameText_bool_injective
      (fun b => by simp [Value.same, Value.sameNumber, Value.integer?]) h

/-! ### Answers -/

/-- In an answer, a map at any place has one entry for each different text of the keys that it had, so as many as before
exactly if the texts were different, and each entry has what was under the last key with its text.  At all depths
together there are as many entries as before exactly if no map, lost ones included, had two keys with one text;
different keys of one kind never have. -/
theorem output_map_entries (h : WideScalar.map.output v = .ok w) :
    (∀ places m, v.at? places = some (.map m) →
      ∃ fields : List (String × Value), w.at? places = some (.map (fields.map entryOf)) ∧
        fields.map Prod.fst = (keyTexts m).eraseDups ∧ (fields.length = m.length ↔ (keyTexts m).Nodup)) ∧
    (∀ places, (v.at? places).map plain = (w.at? places).map .ok) ∧
    entryCount w ≤ entryCount v ∧
    (entryCount w = entryCount v ↔ ∀ m, (Value.map m).Within v → (keyTexts m).Nodup) ∧
    ∀ m, OneKind m → HasDistinctKeys m → (keyTexts m).Nodup := by
  obtain ⟨-, hshort, rfl⟩ := output_eq_ok.1.1 h
  refine ⟨fun places m hm => ?_, fun places => ?_, (counts v).1, (counts v).2, fun m => nodup_keyTexts⟩
  · obtain ⟨fields, hflat, hfields⟩ := exists_flat_map m
    refine ⟨fields, ?_, hfields⟩
    rw [at?_flat, hm, Option.map_some, hflat]
  · rw [at?_flat]
    cases hu : v.at? places with
    | none => rfl
    | some u => exact congrArg some ((plain_comes u).eq_ok.2 ⟨hshort.at? hu, rfl⟩)

/-- Two keys with the text `1` leave one entry; the map that is deeper in keeps its only one. -/
theorem output_map_entries_lost :
    let v : Value := .map [(.int 1, .text "a"), (.text "1", .text "b"), (.text "k", .tuple [.map [(.int 2, .null)]])]
    let w : Value := .map [(.text "1", .text "b"), (.text "k", .list [.map [(.text "2", .null)]])]
    WideScalar.map.output v = .ok w ∧ w.at? [.entry "1"] = some (.text "b") ∧
      (∃ fields : List (String × Value), w.at? [.entry "k", .item 0] = some (.map (fields.map entryOf)) ∧
        fields.map Prod.fst = ["2"] ∧ fields.length = 1) ∧
      ¬ HasDistinctTexts v := by
  intro v w
  have hkept : kept (named [(.int 1, .text "a"), (.text "1", .text "b"),
      (.text "k", .tuple [.map [(.int 2, .null)]])]) = [("1", .text "b"), ("k", .tuple [.map [(.int 2, .null)]])] := rfl
  have hkept' : kept (named [(.int 2, .null)]) = [("2", .null)] := rfl
  have hdeep : flat (.map [(.int 2, .null)]) = .map [(.text "2", .null)] := by
    rw [flat_map, hkept']
    rfl
  have hflat : flat v = w := by
    rw [flat_map, hkept]
    show Value.map [_, (.text "k", .list [flat (.map [(.int 2, .null)])])] = w
    rw [hdeep]
    rfl
  have hshort : HasShortKeys v := by
    have hinner : HasShortKeys (.map [(.int 2, .null)]) :=
      hasShortKeys_map.2 ⟨by decide +kernel, List.forall_mem_singleton.2 (hasShortKeys_of_isLeaf rfl)⟩
    refine hasShortKeys_map.2 ⟨by decide +kernel, ?_⟩
    simp only [List.forall_mem_cons]
    refine ⟨hasShortKeys_of_isLeaf rfl, hasShortKeys_of_isLeaf rfl, ?_, List.forall_mem_nil _⟩
    exact (hasShortKeys_iff_of_not_isMap rfl).2 (List.forall_mem_singleton.2 hinner)
  have hout : WideScalar.map.output v = .ok w := output_eq_ok.1.2 ⟨rfl, hshort, hflat.symm⟩
  obtain ⟨hplaces, -, -, hcount, hkind⟩ := output_map_entries hout
  have hinner : (keyTexts [(.int 2, .null)]).Nodup :=
    hkind _ (.integers [(2, .null)]) (List.pairwise_singleton _ _)
  obtain ⟨fields, hfields, hnames, hlength⟩ := hplaces [.entry "k", .item 0] [(.int 2, .null)] rfl
  refine ⟨hout, rfl, ⟨fields, hfields, hnames, hlength.2 hinner⟩, fun h => ?_⟩
  exact absurd (hcount.2 h) (by decide)

/-- An answer may have fewer entries than a map, even one with different keys. -/
theorem not_output_map_entries_all : ¬ ∀ entries entries' : List (Value × Value), HasDistinctKeys entries →
    WideScalar.map.output (.map entries) = .ok (.map entries') → entries'.length = entries.length := by
  intro h
  have hdistinct : HasDistinctKeys [(.int 1, .text "a"), (.text "1", .text "b")] := by
    simp [HasDistinctKeys, Value.same, Value.sameNumber, Value.integer?]
  have hkept : kept (named [(.int 1, .text "a"), (.text "1", .text "b")]) = [("1", .text "b")] := rfl
  have hflat : flat (.map [(.int 1, .text "a"), (.text "1", .text "b")]) = .map [(.text "1", .text "b")] := by
    rw [flat_map, hkept]
    rfl
  have hshort : HasShortKeys (.map [(.int 1, .text "a"), (.text "1", .text "b")]) := by
    refine hasShortKeys_map.2 ⟨by decide +kernel, ?_⟩
    simp only [List.forall_mem_cons]
    exact ⟨hasShortKeys_of_isLeaf rfl, hasShortKeys_of_isLeaf rfl, List.forall_mem_nil _⟩
  exact absurd (h _ _ hdistinct (output_eq_ok.1.2 ⟨rfl, hshort, hflat.symm⟩)) (by decide)

end ThriftGateway.Graph
