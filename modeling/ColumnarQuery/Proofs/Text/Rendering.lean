import ColumnarQuery.Logical.Expr
import ColumnarQuery.Proofs.Text.Outline

/-!
# Renderings on one line

* `Value.oneLine_render` : the text of a value has a newline only if the value is a text with one;
* `Logical.Expr.texts`, `Physical.Expr.texts` : the names and literals that are written in the text of an expression;
  `Logical.Expr.oneLine_render`, `Physical.Expr.oneLine_render` : it has a newline only if one of them has.
-/

namespace ColumnarQuery

open Text

/-! ## Numbers -/

theorem ne_newline_of_mem_toDigits {n : Nat} {c : Char} (h : c ∈ Nat.toDigits 10 n) : c ≠ '\n' := by
  rintro rfl
  exact absurd (Nat.isDigit_of_mem_toDigits (by decide) (by decide) h) (by decide)

theorem oneLine_toString_nat (n : Nat) : OneLine (toString n) := by
  rw [Nat.toString_eq_ofList_toDigits, OneLine, String.toList_ofList]
  exact fun h => ne_newline_of_mem_toDigits h rfl

theorem oneLine_toString_int (n : Int) : OneLine (toString n) := by
  cases n with
  | ofNat n => exact oneLine_toString_nat n
  | negSucc n =>
    show OneLine ("-" ++ toString (n + 1))
    exact oneLine_append.2 ⟨by decide, oneLine_toString_nat _⟩

theorem Decimal.oneLine_positional (d : Decimal) : OneLine d.positional := by
  have hpad : ∀ width, '\n' ∉ (Nat.toDigits 10 d.digits ++ List.replicate d.exponent.toNat '0').leftpad width '0' := by
    intro width h
    rw [List.leftpad, List.mem_append, List.mem_append, List.mem_replicate, List.mem_replicate] at h
    rcases h with ⟨-, h⟩ | h | ⟨-, h⟩
    · cases h
    · exact ne_newline_of_mem_toDigits h rfl
    · cases h
  unfold positional OneLine
  rw [String.toList_ofList]
  split
  · exact fun h => hpad _ (List.mem_of_mem_take h)
  · intro h
    rw [List.mem_append, List.mem_cons, List.mem_reverse] at h
    rcases h with h | h | h
    · exact hpad _ (List.mem_of_mem_take h)
    · cases h
    · exact hpad _ (List.mem_of_mem_drop (List.mem_reverse.1 ((List.dropWhile_sublist _).subset h)))

theorem FloatBits.oneLine_render {w : FloatWidth} (x : FloatBits w) : OneLine x.render := by
  unfold render
  split
  · decide
  · have htext : OneLine (if x.isInfinite then "inf" else if x.isZero then "0"
        else (shortest w x.magnitude).positional) := by
      split
      · decide
      · split
        · decide
        · exact Decimal.oneLine_positional _
    dsimp only
    split
    · exact oneLine_append.2 ⟨by decide, htext⟩
    · exact htext

/-! ## Values -/

namespace Value

theorem oneLine_render {v : Value} (h : ∀ s ∈ v.text?, OneLine s) : OneLine v.render := by
  cases v with
  | boolean b => cases b <;> decide
  | int w n => exact oneLine_toString_int _
  | float w x => exact x.oneLine_render
  | text s => exact h s rfl

theorem oneLine_renderLiteral {v : Value} (h : ∀ s ∈ v.text?, OneLine s) : OneLine v.renderLiteral := by
  cases v with
  | text s =>
    rw [renderLiteral, oneLine_append, oneLine_append]
    exact ⟨⟨by decide, h s rfl⟩, by decide⟩
  | _ => exact oneLine_render h

end Value

theorem BinaryOp.oneLine_symbol (op : BinaryOp) : OneLine op.symbol := by
  rcases op with op | op | op <;> cases op <;> decide

theorem AggregateFunction.oneLine_name (function : AggregateFunction) : OneLine function.name := by
  cases function <;> decide

theorem DataType.oneLine_name (t : DataType) : OneLine t.name := by
  rcases t with _ | w | w | _
  · decide
  · cases w <;> decide
  · cases w <;> decide
  · decide

theorem Field.oneLine_render {f : Field} (h : OneLine f.name) : OneLine f.render := by
  rw [render, oneLine_append, oneLine_append]
  exact ⟨⟨h, by decide⟩, f.type.oneLine_name⟩

theorem Schema.oneLine_render {s : Schema} (h : ∀ name ∈ s.names, OneLine name) : OneLine s.render := by
  have hfields : OneLine (commaList (s.fields.map Field.render)) := by
    refine oneLine_commaList fun text htext => ?_
    obtain ⟨f, hf, rfl⟩ := List.mem_map.1 htext
    exact Field.oneLine_render (h _ (List.mem_map_of_mem hf))
  rw [render, oneLine_append, oneLine_append]
  exact ⟨⟨by decide, hfields⟩, by decide⟩

/-! ## Expressions -/

def Logical.Expr.texts : Logical.Expr → List String
  | column name => [name]
  | literal v => v.text?.toList
  | binary _ left right => left.texts ++ right.texts
  | aggregate _ input => input.texts
  | renamed expr name => expr.texts ++ [name]

theorem Logical.Expr.oneLine_render {e : Logical.Expr} (h : ∀ s ∈ e.texts, OneLine s) : OneLine e.render := by
  induction e with
  | column name => exact oneLine_append.2 ⟨by decide, h name (List.mem_singleton.2 rfl)⟩
  | literal v => exact Value.oneLine_renderLiteral fun s hs => h s (Option.mem_toList.2 hs)
  | binary op left right ihl ihr =>
    obtain ⟨hl, hr⟩ := List.forall_mem_append.1 h
    simp only [render, toString, oneLine_append]
    exact ⟨⟨⟨⟨ihl hl, by decide⟩, op.oneLine_symbol⟩, by decide⟩, ihr hr⟩
  | aggregate function input ih =>
    simp only [render, toString, oneLine_append]
    exact ⟨⟨⟨function.oneLine_name, by decide⟩, ih h⟩, by decide⟩
  | renamed expr name ih =>
    obtain ⟨hexpr, hname⟩ := List.forall_mem_append.1 h
    simp only [render, toString, oneLine_append]
    exact ⟨⟨ih hexpr, by decide⟩, List.forall_mem_singleton.1 hname⟩

/-- The literals in the text of an expression; columns are written as positions. -/
def Physical.Expr.texts : Physical.Expr → List String
  | column _ => []
  | literal v => v.text?.toList
  | binary _ left right => left.texts ++ right.texts

theorem Physical.Expr.oneLine_render {e : Physical.Expr} (h : ∀ s ∈ e.texts, OneLine s) : OneLine e.render := by
  induction e with
  | column i => exact oneLine_append.2 ⟨by decide, oneLine_toString_nat i⟩
  | literal v => exact Value.oneLine_renderLiteral fun s hs => h s (Option.mem_toList.2 hs)
  | binary op left right ihl ihr =>
    obtain ⟨hl, hr⟩ := List.forall_mem_append.1 h
    simp only [render, toString, oneLine_append]
    exact ⟨⟨⟨⟨ihl hl, by decide⟩, op.oneLine_symbol⟩, by decide⟩, ihr hr⟩

end ColumnarQuery
