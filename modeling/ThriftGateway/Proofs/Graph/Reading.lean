import ThriftGateway.Graph.Compile
import ThriftGateway.Proofs.Idl.Numerals

/-!
# Constants that can be read

If the numerals in a constant are written as numerals and decimal integers are not too long (`IsReadable`), a default
and the members of an enumeration can be told (`exists_defaultFor`, `exists_membersFrom`).
-/

namespace ThriftGateway.Idl

/-- How many digits a decimal integer has. -/
def IntLiteral.digitCount (l : IntLiteral) : Nat := (l.raw.toList.filter Text.isDigit).length

/-- An integer as the grammar has it, not too long if it is decimal. -/
structure IntLiteral.IsReadable (l : IntLiteral) : Prop where
  isText : l.kind.IsText l.raw
  short : l.isHex = false → l.digitCount ≤ 4300

namespace ConstValue

mutual
/-- The numerals in a constant are as the grammar has them, and decimal integers are not too long.  What a map consists
of is never read. -/
def IsReadable : ConstValue → Prop
  | int l => l.IsReadable
  | double _ raw => Terminal.doubleConstant.IsText raw
  | list _ elements => AllReadable elements
  | text .. | bool .. | named .. | map .. | other _ => True

/-- The numerals in several constants are as the grammar has them, and decimal integers are not too long. -/
def AllReadable : List ConstValue → Prop
  | [] => True
  | c :: cs => c.IsReadable ∧ AllReadable cs
end

end ConstValue

end ThriftGateway.Idl

namespace ThriftGateway.Graph

open Idl (ConstValue IntLiteral)

private theorem exists_integerOfLiteral {l : IntLiteral} (h : l.IsReadable) : ∃ n, integerOfLiteral l = .ok n := by
  have htext := h.isText
  unfold IntLiteral.kind at htext
  unfold integerOfLiteral
  cases hhex : l.isHex with
  | true =>
    rw [hhex] at htext
    exact Idl.exists_readInt_of_isText_hex htext
  | false =>
    rw [hhex] at htext
    exact Idl.exists_readInt_of_isText htext (h.short hhex)

mutual
/-- The value of a constant can be told, if it has one. -/
private theorem exists_constantValue : ∀ {c : ConstValue}, c.IsReadable → ∃ v, constantValue c = .ok v
  | .int l, h => by
    obtain ⟨n, hn⟩ := exists_integerOfLiteral h
    exact ⟨some (.int n), by rw [constantValue, hn]; rfl⟩
  | .double line raw, h => by
    obtain ⟨d, hd⟩ := Idl.exists_readDouble_of_isText h
    exact ⟨some (.float d), by rw [constantValue, hd]; rfl⟩
  | .list line elements, h => by
    obtain ⟨vs, hvs⟩ := exists_constantValues h
    exact ⟨vs.map .list, by rw [constantValue, hvs]; rfl⟩
  | .text line s, _ => ⟨some (.text s), by rw [constantValue]⟩
  | .bool line b, _ => ⟨some (.bool b), by rw [constantValue]⟩
  | .named line reference, _ => ⟨none, by rw [constantValue]⟩
  | .map line entries, _ => ⟨none, by rw [constantValue]⟩
  | .other kind, _ => ⟨none, by rw [constantValue]⟩

private theorem exists_constantValues :
    ∀ {cs : List ConstValue}, ConstValue.AllReadable cs → ∃ vs, constantValues cs = .ok vs
  | [], _ => ⟨some [], by rw [constantValues]⟩
  | c :: cs, h => by
    obtain ⟨v, hv⟩ := exists_constantValue h.1
    obtain ⟨vs, hvs⟩ := exists_constantValues h.2
    exact ⟨v.bind fun v => vs.map (v :: ·), by rw [constantValues, hv, hvs]; rfl⟩
end

/-- A constant that can be read gives a default or none. -/
theorem exists_defaultFor {constant : Option ConstValue} (h : ∀ c ∈ constant, c.IsReadable) (type : GraphType) :
    ∃ v, defaultFor constant type = .ok v := by
  cases constant with
  | none => exact ⟨none, rfl⟩
  | some c =>
    obtain ⟨v, hv⟩ := exists_constantValue (h c rfl)
    exact ⟨_, by rw [defaultFor, hv]; rfl⟩

/-- The members of an enumeration, with their names, if their initializers can be read. -/
theorem exists_membersFrom {place : Nat} {ms : List Idl.Member} (h : ∀ m ∈ ms, ∀ l ∈ m.initializer, l.IsReadable) :
    ∃ members, membersFrom place ms = .ok members ∧ members.map EnumMember.name = ms.map Idl.Member.name := by
  induction ms generalizing place with
  | nil => exact ⟨[], rfl, rfl⟩
  | cons m ms ih =>
    obtain ⟨members, hmembers, hnames⟩ := @ih (place + 1) fun m' hm' => h m' (List.mem_cons_of_mem _ hm')
    obtain ⟨v, hv⟩ : ∃ v, memberValue place m = .ok v := by
      unfold memberValue
      cases hi : m.initializer with
      | none => exact ⟨_, rfl⟩
      | some l => exact exists_integerOfLiteral (h m List.mem_cons_self l hi)
    refine ⟨⟨m.name, v, m.description⟩ :: members, ?_, by rw [List.map_cons, List.map_cons, hnames]⟩
    rw [membersFrom, hv, hmembers]
    rfl

end ThriftGateway.Graph
