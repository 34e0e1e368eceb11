import SecureEdgeVision.Json.Fields
import SecureEdgeVision.Json.Number
import SecureEdgeVision.Python.Dict

/-! `json.loads` without hooks, which keeps the last value of a repeated key and lets `NaN` and
infinities through. -/
namespace Json

open Binary64 (Finite)
open Python (Dict Str)

/-- The default `json.loads`. The number `none` stands for an infinity or `NaN`. -/
def plainScanner : Scanner (Option PyNumber) where
  number text := (matchNumber text).map fun (t, rest) =>
    (if t.isFloat then .ok (t.toFloat?.map PyNumber.float)
    else
      match t.toInt? with
      | some n => .ok (some (.int n))
      | none => .error .value, rest)
  constant _ := .ok (.number none)
  object fields := .ok (.object (Dict.ofPairs fields).entries)

/-- The same value, if all of its numbers are finite. -/
def finiteNumbers? (v : Value Str (Option PyNumber)) : Option (Value Str PyNumber) :=
  if v.numbers.all Option.isSome then some (v.mapNumbers fun n => n.getD (.int 0)) else none

theorem finiteNumbers?_mapNumbers (v : Value Str PyNumber) :
    finiteNumbers? (v.mapNumbers some) = some v := by
  have hall : (v.mapNumbers some).numbers.all Option.isSome = true := by
    rw [Value.numbers_mapNumbers, List.all_map]
    exact List.all_eq_true.mpr fun _ _ => rfl
  rw [finiteNumbers?, if_pos hall, Value.mapNumbers_leftInverse fun _ => rfl]

theorem keepsObjects_plainScanner : KeepsObjects plainScanner := by
  intro fields h
  show Except.ok (Value.object (Dict.ofPairs fields).entries) = _
  rw [Dict.entries_ofPairs h]

section Numbers
variable {reprFloat : Finite → String}

theorem plainScanner_number {text rest : List Char} {n : PyNumber}
    (h : scanNumber text = some (.ok n, rest)) :
    plainScanner.number text = some (.ok (some n), rest) := by
  obtain ⟨⟨token, rest'⟩, hmatch, he⟩ := Option.map_eq_some_iff.mp h
  obtain ⟨hvalue, rfl⟩ := Prod.mk.inj he
  have hplain : plainScanner.number text = some (if token.isFloat then
      .ok (token.toFloat?.map PyNumber.float)
    else
      match token.toInt? with
      | some n => .ok (some (.int n))
      | none => .error .value, rest') := by
    dsimp only [plainScanner]
    rw [hmatch]
    rfl
  rw [hplain]
  split_ifs at hvalue ⊢
  · cases hfloat : token.toFloat? with
    | none =>
      rw [hfloat] at hvalue
      cases hvalue
    | some x =>
      rw [hfloat] at hvalue
      rw [← Except.ok.inj hvalue]
      rfl
  · cases hint : token.toInt? with
    | none =>
      rw [hint] at hvalue
      cases hvalue
    | some m =>
      rw [hint] at hvalue
      rw [← Except.ok.inj hvalue]

theorem reads_plain (h : FloatRepr reprFloat) {n : PyNumber} (hn : n.printable = true) :
    Reads plainScanner (fun n => n.elim [] (numberText reprFloat)) (some n) := by
  let strict : Scanner PyNumber := ⟨scanNumber, fun _ => .error .value, fun f => .ok (.object f)⟩
  have hreads : Reads strict (numberText reprFloat) n := reads_number rfl h hn
  exact ⟨hreads.ne_nil, hreads.chars,
    fun rest hrest => plainScanner_number (hreads.scan rest hrest)⟩

/-- What `dumps` writes with sorted keys, the default `loads` reads back. -/
theorem loads_dumps_plain (h : FloatRepr reprFloat) {v : Value String PyNumber}
    (hclean : v.Clean fun _ => True) {depth : ℕ} (hdepth : v.nesting ≤ depth) {text : String}
    (htext : dumps reprFloat v.sortKeys = some text) :
    loads plainScanner depth text.toList = .ok ((scanned v.sortKeys).mapNumbers some) := by
  obtain ⟨hprintable, htext⟩ := dumps_eq_some.mp htext
  have hnumbers : v.Clean fun n => n.printable = true :=
    hclean.of_numbers fun n hn => hprintable n ((Value.numbers_sortKeys v).mem_iff.mpr hn)
  have hreads := hnumbers.canonical (Q := fun n =>
    Reads plainScanner (fun n => n.elim [] (numberText reprFloat)) n) fun n => reads_plain h
  have hloads := loads_render keepsObjects_plainScanner hreads
    (hnumbers.nesting_canonical.trans hdepth)
  rw [Value.canonical, render_mapNumbers] at hloads
  rw [htext, scanned, ← Value.mapStrings_mapNumbers]
  exact hloads

end Numbers

end Json
