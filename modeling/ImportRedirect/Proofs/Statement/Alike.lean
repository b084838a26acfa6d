import ImportRedirect.Proofs.Statement.Regular
import ImportRedirect.Proofs.Statement.Visit
import ImportRedirect.Proofs.Value.Same

/-!
A redirected statement that equals the one it was made of up to the order of fields is that
statement. So it shows whenever a statement is redirected.
-/

namespace ImportRedirect

open Node

namespace Node

variable {literal node other source otherSource declarator otherDeclarator specifier : Value}
  {otherSpecifier : Value} {specifiers otherSpecifiers : List Value} {text : String} {quote : Char}

theorem Quoted.ne_null (quoted : Quoted literal) : literal ≠ .null := by
  rintro rfl
  obtain ⟨fields, impossible⟩ := quoted.record
  simp at impossible

theorem Quoted.retext_of_same (quoted : Quoted literal)
    (alike : literal.same (Node.retext literal text quote) = true) :
    Node.retext literal text quote = literal := by
  obtain ⟨content, value⟩ := quoted.value
  obtain ⟨written, raw⟩ := quoted.raw
  have sameValue : (literal.peek "value").same
      ((Node.retext literal text quote).peek "value") = true :=
    Value.same_peek alike (by simp [value])
  have sameRaw : (literal.peek "raw").same ((Node.retext literal text quote).peek "raw") = true :=
    Value.same_peek alike (by simp [raw])
  rw [Node.retext, Value.peek_put_of_ne (by decide), Value.peek_put_self quoted.record, value,
    Value.same_str, beq_iff_eq] at sameValue
  rw [Node.retext, Value.peek_put_self (quoted.record.put _ _), raw, Value.same_str,
    beq_iff_eq] at sameRaw
  subst sameValue
  rw [Node.retext, Value.put_of_peek value (by simp), ← sameRaw, Value.put_of_peek raw (by simp)]

theorem Imports.same_source (imports : Imports node source specifiers)
    (after : Imports other otherSource otherSpecifiers) (present : source ≠ .null)
    (alike : node.same other = true) : source.same otherSource = true := by
  have equal : (node.peek "source").same (other.peek "source") = true :=
    Value.same_peek alike (by rw [imports.source_eq]; exact present)
  rwa [imports.source_eq, after.source_eq] at equal

/-- Imports of one specifier are not equal when its type changed. -/
theorem Imports.same_type (imports : Imports node source [specifier])
    (after : Imports other otherSource [otherSpecifier]) (present : specifier.peek "type" ≠ .null)
    (alike : node.same other = true) :
    (specifier.peek "type").same (otherSpecifier.peek "type") = true := by
  have equal : (node.peek "specifiers").same (other.peek "specifiers") = true :=
    Value.same_peek alike (by simp [imports.specifiers_eq])
  rw [imports.specifiers_eq, after.specifiers_eq, Value.same_arr_singleton] at equal
  exact Value.same_peek equal present

theorem Declares.same_init (declares : Declares node declarator)
    (after : Declares other otherDeclarator) (present : declarator.peek "init" ≠ .null)
    (alike : node.same other = true) :
    (declarator.peek "init").same (otherDeclarator.peek "init") = true := by
  have equal : (node.peek "declarations").same (other.peek "declarations") = true :=
    Value.same_peek alike (by simp [declares.declarations])
  rw [declares.declarations, after.declarations, Value.same_arr_singleton] at equal
  exact Value.same_peek equal present

end Node

namespace Redirector

variable {node source declarator argument value : Value} {specifiers : List Value}
  {text callee : String} {quote : Char} {function : Option String}

/-- An import that equals the old one after its source was replaced is the old one. -/
theorem withSource_of_same (imports : Imports node source specifiers) (quoted : Quoted source)
    (alike : node.same (node.put "source" (retext source text quote)) = true) :
    node.put "source" (retext source text quote) = node := by
  have kept := quoted.retext_of_same
    (imports.same_source (imports.withSource _) quoted.ne_null alike)
  rw [kept, Value.put_of_peek imports.source_eq quoted.ne_null]

/-- A declaration that equals the old one after its argument was replaced is the old one. -/
theorem requireOf_of_same (declares : Declares node declarator)
    (calls : Calls (declarator.peek "init") callee argument) (quoted : Quoted argument)
    (alike : node.same (requireOf node declarator (retext argument text quote)) = true) :
    requireOf node declarator (retext argument text quote) = node := by
  have requires := calls.withArgument (retext argument text quote)
  have after : Declares (requireOf node declarator (retext argument text quote)) _ :=
    declares.withDeclarator (declares.record.put "init" _)
  have equal := declares.same_init after calls.ne_null alike
  rw [Value.peek_put_self declares.record] at equal
  have arguments := Value.same_peek equal (by rw [calls.argument_eq]; simp)
  rw [calls.argument_eq, requires.argument_eq, Value.same_arr_singleton] at arguments
  rw [requireOf, quoted.retext_of_same arguments,
    Value.put_of_peek calls.argument_eq (by simp), Value.put_of_peek rfl calls.ne_null,
    Value.put_of_peek declares.declarations (by simp)]

theorem same_memberOf (calls : Calls value callee argument) (object : Value) :
    value.same (memberOf object function) = false := by
  rw [← Bool.not_eq_true]
  intro alike
  have kind := hasType_iff.mp calls.kind
  have other : (memberOf object function).peek "type" = .str "MemberExpression" := rfl
  have equal : (value.peek "type").same ((memberOf object function).peek "type") = true :=
    Value.same_peek alike (by simp [kind])
  rw [kind, other] at equal
  exact absurd equal (by decide)

end Redirector

end ImportRedirect
