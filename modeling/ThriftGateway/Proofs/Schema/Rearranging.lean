import ThriftGateway.Proofs.Schema.Likeness
import ThriftGateway.Proofs.Schema.Sides

/-!
# Declarations in another order

Where a schema is assembled, neither the order of the declarations in a document nor declarations of further names
matter, nor do constants and namespaces (`run_assemble_of_rearranges`): references are looked up by names, and the names
that are looked up are declared once.
-/

namespace ThriftGateway

open Idl (Document)

/-- The same includes and services, with the declarations in another order and maybe with more of them, of other names.
The rest of the document may be anything. -/
structure Idl.Document.Rearranges (d d' : Document) : Prop where
  includes : d'.includes = d.includes
  services : d'.services = d.services
  declarations : ∃ more, d'.declarations.Perm (d.declarations ++ more) ∧
    ∀ e ∈ more, ∀ e' ∈ d.declarations, e.name ≠ e'.name

/-- A name that is declared once still is. -/
private theorem Idl.Document.Rearranges.declarationsNamed {d d' : Document} (h : d.Rearranges d') {name : String}
    {e : Idl.Declaration} (he : d.declarationsNamed name = [e]) : d'.declarationsNamed name = [e] := by
  obtain ⟨more, hperm, hnames⟩ := h.declarations
  have hmem : e ∈ d.declarationsNamed name := he ▸ List.mem_singleton_self e
  obtain ⟨hmem, hname⟩ := List.mem_filter.1 hmem
  have hnone : more.filter (·.name = name) = [] := by
    rw [List.filter_eq_nil_iff]
    intro x hx hn
    exact hnames x hx e hmem ((of_decide_eq_true hn).trans (of_decide_eq_true hname).symm)
  have hfilter := hperm.filter (·.name = name)
  rw [List.filter_append, hnone, List.append_nil] at hfilter
  exact List.perm_singleton.1 (he ▸ hfilter)

namespace Source.Library

/-- The documents of the other library are those of the one, rearranged. -/
def Rearranges (l l' : Library) : Prop :=
  List.Forall₂ (fun e e' => e'.1 = e.1 ∧ e.2.Rearranges e'.2) l.entries l'.entries

private theorem Rearranges.covers {l l' : Library} (h : l.Rearranges l') : l.Covers l' := by
  have hfind : ∀ {es es' : List (Path × Document)},
      List.Forall₂ (fun e e' => e'.1 = e.1 ∧ e.2.Rearranges e'.2) es es' → ∀ p e, es.find? (·.1 = p) = some e →
        ∃ e', es'.find? (·.1 = p) = some e' ∧ e.2.Rearranges e'.2 := by
    intro es es' hes p e he
    induction hes with
    | nil => cases he
    | @cons x x' es es' hx _ ih =>
      rw [List.find?_cons] at he ⊢
      rw [hx.1]
      split at he
      · cases he
        exact ⟨x', rfl, hx.2⟩
      · exact ih he
  intro p d hd
  obtain ⟨e, he, rfl⟩ := Option.map_eq_some_iff.1 hd
  obtain ⟨e', he', hrearranges⟩ := hfind h p e he
  exact ⟨e'.2, by rw [document?, he']; rfl, hrearranges.includes, fun _ _ => hrearranges.declarationsNamed⟩

end Source.Library

namespace Schema

open Graph (Agree Likeness QueryNaming Session Work expandType expandType_of_covers)
open Source (Library)

/-- The likeness of a library to one that covers it, where only what has succeeded counts. -/
private def covered {l l' : Library} (h : l.Covers l') : Likeness :=
  .plain l l' True Eq (fun _ h => h ▸ rfl) fun file t => by
    cases he : expandType l [] file t with
    | ok e =>
      rw [expandType_of_covers h he]
      exact .ok rfl
    | error e => exact .excused trivial

/-- Where assembling succeeds, it gives the same schema and makes the same nodes when the declarations of documents are
put in another order and declarations of new names, constants and namespaces are added. -/
theorem run_assemble_of_rearranges {queries : QueryNaming} {offers : List Offer} {s s₁ : Session} {schema : Schema}
    {l' : Library} (hl : s.library.Rearranges l') (h : Work.run (assemble queries offers) s = (.ok schema, s₁)) :
    Work.run (assemble queries offers) { s with library := l' } = (.ok schema, { s₁ with library := l' }) := by
  have hoffers : List.Forall₂ (OfferAlike (covered hl.covers)) offers offers :=
    List.forall₂_same.2 fun o _ => ⟨rfl, rfl, rfl, functionsAlike_refl rfl _ _, rfl, rfl, rfl⟩
  have hsessions : (covered hl.covers).Sessions s { s with library := l' } :=
    (Likeness.sessions_iff rfl).2 ⟨rfl, rfl, rfl⟩
  have houtcome := assemble_follows queries hoffers s { s with library := l' } hsessions
  rw [h] at houtcome
  generalize Work.run (assemble queries offers) { s with library := l' } = r at houtcome ⊢
  cases houtcome with
  | @ok _ schema' _ s₁' hschema hs =>
    obtain ⟨-, hlogs, hs⟩ := (Likeness.sessions_iff rfl).1 hs
    obtain rfl : schema' = schema := schemaAlike_eq rfl hschema
    have hlogs : s₁.log = s₁'.log := hlogs
    rw [hs, ← hlogs]
    rfl

/-- The struct behind a constant, a namespace and another name for it, with that name given once more. -/
def looped.shuffled : Document where
  line := 1
  body := [.service looped.service, .constant ⟨1, "c", .base 1 "i32", none, none⟩, .scope 1 "py" "a",
    .declaration (.typedef ⟨2, "T", .named 2 "S", none⟩), .declaration (.struct looped.loop),
    .declaration (.typedef ⟨2, "T", .base 2 "i64", none⟩)]

/-- The schema of the struct stays the same. -/
theorem run_assemble_of_rearranges_looped :
    let l : Library := ⟨[(looped.file, looped.shuffled)]⟩
    looped.both.library.Rearranges l ∧
      Work.run (assemble Graph.joinedName [looped.offer]) { looped.both with library := l } =
        (.ok looped.schema, { looped.both.close with library := l }) := by
  intro l
  have hdocument : Document.Rearranges ⟨1, [.declaration (.struct looped.loop), .service looped.service], none⟩
      looped.shuffled := by
    refine ⟨rfl, rfl, [.typedef ⟨2, "T", .named 2 "S", none⟩, .typedef ⟨2, "T", .base 2 "i64", none⟩], ?_, ?_⟩
    · exact List.Perm.swap _ _ _
    · simp [Idl.Document.declarations, looped.loop, Idl.Declaration.name]
  have hl : looped.both.library.Rearranges l := .cons ⟨rfl, hdocument⟩ .nil
  exact ⟨hl, run_assemble_of_rearranges hl looped.run_assemble⟩

end Schema

end ThriftGateway
