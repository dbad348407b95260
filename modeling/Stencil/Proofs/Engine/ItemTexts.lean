import Mathlib.Data.List.Forall2
import Stencil.Proofs.Engine.Printing
import Stencil.Proofs.Eval.Operands
import Stencil.Proofs.Program.Joining
set_option autoImplicit false

namespace Stencil

namespace Text

theorem intercalate_empty (ts : List String) : "".intercalate ts = String.join ts := by
  induction ts with
  | nil => rfl
  | cons t ts ih => cases ts <;> simp_all

theorem intercalate_eq_join (sep : String) (ts : List String) :
    sep.intercalate ts = String.join (ts.intersperse sep) := by
  induction ts with
  | nil => rfl
  | cons t ts ih => cases ts <;> simp_all [String.append_assoc]

end Text

namespace Value

def texts : List Value → Except Kind (List String)
  | [] => .ok []
  | v :: vs =>
    match v.text? with
    | some s => (texts vs).map (s :: ·)
    | none => .error v.kind

theorem texts_cons_of_some {v : Value} {s : String} (h : v.text? = some s) (vs : List Value) :
    texts (v :: vs) = (texts vs).map (s :: ·) := by
  simp only [texts, h]

theorem texts_cons_of_none {v : Value} (h : v.text? = none) (vs : List Value) :
    texts (v :: vs) = .error v.kind := by
  simp only [texts, h]

theorem forall₂_of_texts {vs : List Value} {ts : List String} (h : texts vs = .ok ts) :
    List.Forall₂ (fun v s => v.text? = some s) vs ts := by
  induction vs generalizing ts with
  | nil =>
    obtain rfl : [] = ts := Except.ok.inj h
    exact .nil
  | cons v vs ih =>
    cases hv : v.text? with
    | none => simp [texts_cons_of_none hv] at h
    | some s =>
      cases hrest : texts vs with
      | error k => simp [texts_cons_of_some hv, hrest, Except.map] at h
      | ok rest =>
        obtain rfl : s :: rest = ts := by
          simpa [texts_cons_of_some hv, hrest, Except.map] using h
        exact .cons hv (ih hrest)

theorem exists_texts_error_iff (vs : List Value) :
    (∃ k, texts vs = .error k) ↔ ∃ v ∈ vs, v.kind = .null ∨ v.kind = .array ∨ v.kind = .object := by
  simp only [← text?_eq_none_iff]
  induction vs with
  | nil => simp [texts]
  | cons v vs ih =>
    rw [List.exists_mem_cons_iff, ← ih]
    cases hv : v.text? with
    | none => simp [texts_cons_of_none hv]
    | some s => cases hrest : texts vs <;> simp [texts_cons_of_some hv, hrest, Except.map]

theorem print_of_some {v : Value} {s : String} (h : v.text? = some s) : v.print = .ok s := by
  simp only [print, h]

theorem print_of_none {v : Value} (h : v.text? = none) : v.print = .error (.unprintable v.kind) := by
  simp only [print, h]

theorem add_string (acc : String) (v : Value) :
    add (.string acc) v = v.print.map fun s => .string (acc ++ s) := by
  have h : add (.string acc) v = v.print >>= fun s => pure (string (acc ++ s)) := by
    cases v <;> rfl
  rw [h]
  cases v.print <;> rfl

theorem foldlM_add (acc : String) (vs : List Value) :
    vs.foldlM add (.string acc) =
      ((texts vs).map fun ts => .string (acc ++ String.join ts)).mapError .unprintable := by
  -- The sum so far stays a string, whatever is added next.
  induction vs generalizing acc with
  | nil => simp [texts, Except.map, Except.mapError, pure, Except.pure]
  | cons v vs ih =>
    rw [List.foldlM_cons, add_string]
    cases hv : v.text? with
    | none =>
      rw [texts_cons_of_none hv, print_of_none hv]
      rfl
    | some s =>
      rw [texts_cons_of_some hv, print_of_some hv]
      refine (ih (acc ++ s)).trans ?_
      cases texts vs with
      | error k => rfl
      | ok ts => simp [Except.map, String.append_assoc]

end Value

namespace Functions

theorem itemTexts_eq (vs : List Value) :
    itemTexts vs = (Value.texts vs).mapError .unprintable := by
  induction vs with
  | nil => rfl
  | cons v vs ih =>
    cases hv : v.text? with
    | none => simp [itemTexts, Value.texts_cons_of_none hv, hv, Except.mapError]
    | some s =>
      simp only [itemTexts, Value.texts_cons_of_some hv, hv, ih]
      cases Value.texts vs <;> rfl

theorem join_alone (vs : List Value) :
    join [.array vs] =
      ((Value.texts vs).map fun ts => .string (String.join ts)).mapError .unprintable := by
  have hjoin : join [.array vs] = itemTexts vs >>= fun ts => pure (.string ("".intercalate ts)) := rfl
  simp only [hjoin, itemTexts_eq, Text.intercalate_empty]
  cases Value.texts vs <;> rfl

theorem join_separated (vs : List Value) (sep : String) :
    join [.array vs, .string sep] =
      ((Value.texts vs).map fun ts => .string (String.join (ts.intersperse sep))).mapError
        .unprintable := by
  have hjoin : join [.array vs, .string sep] =
      itemTexts vs >>= fun ts => pure (.string (sep.intercalate ts)) := rfl
  simp only [hjoin, itemTexts_eq, Text.intercalate_eq_join]
  cases Value.texts vs <;> rfl

theorem str_of_some {v : Value} {s : String} (h : v.text? = some s) : str [v] = .ok (.string s) := by
  have hstr : str [v] = match v.text? with
      | some s => pure (Value.string s)
      | none => throw (.unprintable v.kind) := rfl
  rw [hstr, h]
  rfl

end Functions

namespace Expr

section

variable {st : Setting} {scope : Scope} {es : List Expr} {vs : List Value}
  (h : List.Forall₂ (fun e v => e.eval st scope = .ok v) es vs)

include h

theorem eval_foldl_add (x : Expr) :
    (es.foldl (.binary .add) x).eval st scope = x.eval st scope >>= vs.foldlM Value.add := by
  induction h generalizing x with
  | nil => cases hx : x.eval st scope <;> simp [hx]
  | @cons e v es vs he _ ih =>
    have hx : (Expr.binary .add x e).eval st scope = x.eval st scope >>= fun w => w.add v := by
      simp only [eval, he]
      rfl
    rw [List.foldl_cons, ih, hx, bind_assoc]
    simp only [List.foldlM_cons]

end

section

variable {st : Setting} {scope : Scope} (hst : st.functions.HasBuiltins) {x : Expr}
  {xs : List Value} (hx : x.eval st scope = .ok (.array xs))

include hst hx

theorem eval_join :
    (call "join" [x]).eval st scope =
      ((Value.texts xs).map fun ts => .string (String.join ts)).mapError fun k =>
        .function "join" (ArgumentError.unprintable k).message := by
  rw [eval_builtin (.cons hx .nil) hst rfl, Functions.join_alone]
  cases Value.texts xs <;> rfl

theorem eval_join_separated {y : Expr} {sep : String} (hy : y.eval st scope = .ok (.string sep)) :
    (call "join" [x, y]).eval st scope =
      ((Value.texts xs).map fun ts => .string (String.join (ts.intersperse sep))).mapError fun k =>
        .function "join" (ArgumentError.unprintable k).message := by
  rw [eval_builtin (.cons hx (.cons hy .nil)) hst rfl, Functions.join_separated]
  cases Value.texts xs <;> rfl

end

/-- The expressions added one after the other, from the left, to the empty string. -/
def textSum (es : List Expr) : Expr := es.foldl (.binary .add) (.literal (.string ""))

theorem eval_textSum {st : Setting} {scope : Scope} {es : List Expr} {vs : List Value}
    (h : List.Forall₂ (fun e v => e.eval st scope = .ok v) es vs) :
    (textSum es).eval st scope =
      ((Value.texts vs).map fun ts => .string (String.join ts)).mapError .unprintable := by
  have hfold : (textSum es).eval st scope = vs.foldlM Value.add (.string "") :=
    eval_foldl_add h (.literal (.string ""))
  simpa only [String.empty_append] using hfold.trans (Value.foldlM_add "" vs)

end Expr

namespace Renderer

variable {σ : Type} (r : Renderer σ) (scope : Scope)

theorem concat_printed {e : Expression} {index value : String} (h : e.parsed = .ok (.ident value))
    (start : Nat) (vs : List Value) :
    Run.concat (fun p => r.runAll (scope.push ⟨index, p.1, value, p.2⟩) [.print e])
        (Value.enumerate start vs) =
      Run.ofEval (((Value.texts vs).map String.join).mapError .unprintable) := by
  -- The positions differ from round to round and are not printed.
  induction vs generalizing start with
  | nil => rfl
  | cons v vs ih =>
    have hv : (Expr.ident value).eval r.setting (scope.push ⟨index, .number (.ofCount start), value, v⟩) =
        .ok v := by
      simp [Expr.eval, Setting.lookup, Scope.lookup_push, LoopFrame.get?]
    have hfirst : r.runAll (scope.push ⟨index, .number (.ofCount start), value, v⟩) [.print e] =
        Run.ofEval v.print := by
      rw [runAll_one, run_print _ _ h, hv]
      rfl
    rw [Value.enumerate, Run.concat, hfirst, ih]
    cases htext : v.text? with
    | none =>
      rw [Value.texts_cons_of_none htext, Value.print_of_none htext]
      rfl
    | some s =>
      rw [Value.texts_cons_of_some htext, Value.print_of_some htext]
      cases Value.texts vs with
      | error k => rfl
      | ok ts => simp [Run.ofEval, Except.map, Except.mapError]

theorem run_loop_print {collection e : Expression} {index value : String} {vs : List Value}
    (he : e.parsed = .ok (.ident value))
    (hc : collection.eval r.name r.setting scope = .ok (.array vs)) :
    r.run scope (.loop index value collection [.print e]) =
      Run.ofEval (((Value.texts vs).map String.join).mapError .unprintable) := by
  rw [run, eval, hc]
  exact r.concat_printed scope he 0 vs

end Renderer

namespace Engine

section

variable {e : Engine} {fields : List (String × Value)} {xs : List Value}
  (hxs : Entries.get? "xs" fields = some (.array xs))

include hxs

theorem eval_xs : (Expr.ident "xs").eval e.world.host.setting (Scope.ofContext fields) =
    .ok (.array xs) := by
  simp only [Expr.eval, Setting.lookup, Scope.lookup_ofContext, hxs]

theorem renderSource_loop_print :
    (e.renderSource "$\x7bfor i, v in xs\x7d$\x7bv\x7d$\x7bendfor\x7d" (.object fields)).1 =
      ((Value.texts xs).map String.join).mapError fun k => .error (.render (.unprintable k)) := by
  have hpieces : Markup.pieces "$\x7bfor i, v in xs\x7d$\x7bv\x7d$\x7bendfor\x7d" =
      .ok [⟨.forStart "i" "v" ⟨"xs", 14⟩, 0, 17⟩, ⟨.print ⟨"v", 19⟩, 17, 21⟩, ⟨.endFor, 21, 30⟩] := by
    decide +kernel
  have hcompile : compileSource "$\x7bfor i, v in xs\x7d$\x7bv\x7d$\x7bendfor\x7d" =
      .ok ⟨none, [.loop "i" "v" (Expression.compile "xs" 14) [.print (Expression.compile "v" 19)]]⟩ :=
    Template.compile_eq_ok_iff.2 ⟨_, hpieces, rfl, rfl⟩
  have hlex : Expr.lex "v" = [⟨.ident "v", 0, 1⟩] := by decide +kernel
  have hlex' : Expr.lex "xs" = [⟨.ident "xs", 0, 2⟩] := by decide +kernel
  have hv : (Expression.compile "v" 19).parsed = .ok (.ident "v") := by
    rw [Expression.compile, Expr.parse, hlex]
    rfl
  have hcollection : (Expression.compile "xs" 14).parsed = .ok (.ident "xs") := by
    rw [Expression.compile, Expr.parse, hlex']
    rfl
  have hc : (Expression.compile "xs" 14).eval none e.world.host.setting (Scope.ofContext fields) =
      .ok (.array xs) := by
    rw [Expression.eval, Expression.tree, hcollection]
    exact eval_xs hxs
  simp only [renderSource, hcompile, renderTemplate, exec, World.render, Host.render,
    Template.renderWith, Renderer.runAll_one]
  rw [Renderer.run_loop_print _ _ hv hc, Run.exec_ofEval]
  cases Value.texts xs <;> rfl

end

/-- An array of any values is written alike by a join, by a loop that prints the items and by their sum:
all three succeed with the same text, or all fail, and that if and only if an item is null, an array or
an object. The text is made of what each item is as a string, and a separator, if there is one, stands
between any two of them. -/
theorem items_written_alike (e : Engine) (hfs : e.world.functions.HasBuiltins)
    {fields : List (String × Value)} {xs : List Value} {es : List Expr} {y : Expr} {sep : String}
    (hxs : Entries.get? "xs" fields = some (.array xs))
    (hes : List.Forall₂ (fun x v =>
      x.eval e.world.host.setting (Scope.ofContext fields) = .ok v) es xs)
    (hy : y.eval e.world.host.setting (Scope.ofContext fields) = .ok (.string sep)) :
    let st := e.world.host.setting
    let scope := Scope.ofContext fields
    let joined := (Expr.call "join" [.ident "xs"]).eval st scope
    let separated := (Expr.call "join" [.ident "xs", y]).eval st scope
    let looped := (e.renderSource "$\x7bfor i, v in xs\x7d$\x7bv\x7d$\x7bendfor\x7d" (.object fields)).1
    let summed := (Expr.textSum es).eval st scope
    let unprintable := ∃ v ∈ xs, v.kind = .null ∨ v.kind = .array ∨ v.kind = .object
    (∀ t, (joined = .ok (.string t) ↔ looped = .ok t) ∧
      (joined = .ok (.string t) ↔ summed = .ok (.string t))) ∧
    ((∃ err, joined = .error err) ↔ unprintable) ∧
    ((∃ halt, looped = .error halt) ↔ unprintable) ∧
    ((∃ err, summed = .error err) ↔ unprintable) ∧
    ∀ v, joined = .ok v → ∃ texts : List String,
      List.Forall₂ (fun x s => st.call "str" [x] = .ok (.string s)) xs texts ∧
      v = .string (String.join texts) ∧
      separated = .ok (.string (String.join (texts.intersperse sep))) ∧
      (texts.intersperse sep).length = xs.length + (xs.length - 1) := by
  intro st scope joined separated looped summed unprintable
  have hst : st.functions.HasBuiltins := hfs
  have hjoined : joined = _ := Expr.eval_join hst (eval_xs hxs)
  have hseparated : separated = _ := Expr.eval_join_separated hst (eval_xs hxs) hy
  have hlooped : looped = _ := renderSource_loop_print hxs
  have hsummed : summed = _ := Expr.eval_textSum hes
  have hfails : (∃ k, Value.texts xs = .error k) ↔ unprintable := Value.exists_texts_error_iff xs
  rw [hjoined, hseparated, hlooped, hsummed, ← hfails]
  cases h : Value.texts xs with
  | error k => simp [Except.map, Except.mapError]
  | ok ts =>
    have hts := Value.forall₂_of_texts h
    have hstr : List.Forall₂ (fun x s => st.call "str" [x] = .ok (.string s)) xs ts :=
      hts.imp fun x s hx => by
        rw [hst.call rfl, Functions.str_of_some hx]
        rfl
    have hlength : (ts.intersperse sep).length = xs.length + (xs.length - 1) := by
      rw [List.length_intersperse, hts.length_eq]
      omega
    simp only [Except.map, Except.mapError, Except.ok.injEq, Value.string.injEq, reduceCtorEq,
      exists_false, true_and, implies_true]
    rintro _ rfl
    exact ⟨ts, hstr, rfl, rfl, hlength⟩

theorem mixed_items_written :
    let one : Value := .number (.ofCount 1)
    let twenty : Value := .number (.ofCount 20)
    let fields := [("xs", .array [one, twenty, .string "c", .bool true]), ("a", one), ("b", twenty),
      ("t", .bool true)]
    let fields' := [("xs", .array [one, .null]), ("a", one)]
    let loop := "$\x7bfor i, v in xs\x7d$\x7bv\x7d$\x7bendfor\x7d"
    let sum := Expr.textSum [.ident "a", .ident "b", .literal (.string "c"), .ident "t"]
    let separated := Expr.call "join" [.ident "xs", .literal (.string ", ")]
    Expr.parse "'' + a + b + 'c' + t" = .ok sum ∧ Expr.parse "join(xs, ', ')" = .ok separated ∧
    (empty.renderSource loop (.object fields)).1 = .ok "120ctrue" ∧
    sum.eval empty.world.host.setting (Scope.ofContext fields) = .ok (.string "120ctrue") ∧
    (∃ texts : List String, String.join texts = "120ctrue" ∧
      separated.eval empty.world.host.setting (Scope.ofContext fields) =
        .ok (.string (String.join (texts.intersperse ", "))) ∧
      (texts.intersperse ", ").length = 4 + 3) ∧
    ∃ halt, (empty.renderSource loop (.object fields')).1 = .error halt := by
  intro one twenty fields fields' loop sum separated
  have hfs : Functions.HasBuiltins empty.world.functions := fun _ _ h => h
  have hlooped : (empty.renderSource loop (.object fields)).1 = .ok "120ctrue" := by decide +kernel
  obtain ⟨hagree, -, -, -, htexts⟩ := @items_written_alike empty hfs fields
    [one, twenty, .string "c", .bool true] [.ident "a", .ident "b", .literal (.string "c"), .ident "t"]
    (.literal (.string ", ")) ", " rfl (.cons rfl (.cons rfl (.cons rfl (.cons rfl .nil)))) rfl
  obtain ⟨texts, -, htext, hseparated, hlength⟩ := htexts _ ((hagree _).1.2 hlooped)
  obtain ⟨-, -, hfails, -, -⟩ := @items_written_alike empty hfs fields' [one, .null]
    [.ident "a", .literal .null] (.literal (.string ", ")) ", " rfl (.cons rfl (.cons rfl .nil)) rfl
  have hlex : Expr.lex "'' + a + b + 'c' + t" = [⟨.string "", 0, 2⟩, ⟨.symbol .plus, 3, 4⟩,
      ⟨.ident "a", 5, 6⟩, ⟨.symbol .plus, 7, 8⟩, ⟨.ident "b", 9, 10⟩, ⟨.symbol .plus, 11, 12⟩,
      ⟨.string "c", 13, 16⟩, ⟨.symbol .plus, 17, 18⟩, ⟨.ident "t", 19, 20⟩] := by decide +kernel
  have hsum : Expr.parse "'' + a + b + 'c' + t" = .ok sum := by
    rw [Expr.parse, hlex]
    rfl
  have hlex' : Expr.lex "join(xs, ', ')" = [⟨.ident "join", 0, 4⟩, ⟨.symbol .parenOpen, 4, 5⟩,
      ⟨.ident "xs", 5, 7⟩, ⟨.symbol .comma, 7, 8⟩, ⟨.string ", ", 9, 13⟩,
      ⟨.symbol .parenClose, 13, 14⟩] := by decide +kernel
  have hjoin : Expr.parse "join(xs, ', ')" = .ok separated := by
    rw [Expr.parse, hlex']
    rfl
  exact ⟨hsum, hjoin, hlooped, (hagree _).2.1 ((hagree _).1.2 hlooped),
    ⟨texts, (Value.string.inj htext).symm, hseparated, hlength⟩,
    hfails.2 ⟨.null, by simp, .inl rfl⟩⟩

end Engine

end Stencil
