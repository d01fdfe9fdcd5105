/-
PocketLisp/Proofs/Templates.lean

Macros that fill in templates.

A template is made of quoted forms, of parameters and of lists of templates.
It is written with `quote` and with the function that makes lists, and a macro
with such a body puts its argument forms in the places of the parameters.
These macros have no side effects and always come to an end, whatever they are
called with.

Main result: `Store.pureExpanders_of_templates`.
-/
import PocketLisp.Proofs.Calling

namespace PocketLisp

/-! ### Templates -/

/-- Patterns that a form, or the elements of a list, are made by. -/
inductive Template : Part → Type
  /-- a form that is put there as it is -/
  | quoted (v : Value) : Template .form
  /-- the form that is bound to a parameter -/
  | parameter (symbol : Symbol) : Template .form
  | list (ts : Template .items) : Template .form
  | none : Template .items
  | more (t : Template .form) (ts : Template .items) : Template .items

namespace Template

/-- The content of what is made by a template, given that of what parameters are bound to. -/
def fill (content : Symbol → Value) : {p : Part} → Template p → p.Result
  | _, quoted v => v.bare
  | _, parameter symbol => content symbol
  | _, list ts => Value.bareList (ts.fill content)
  | _, none => []
  | _, more t ts => t.fill content :: ts.fill content

/-- How templates are written with parameters and with names of the function that makes lists. -/
inductive Written (makesLists : Symbol → Prop) (parameters : List Symbol) :
    {p : Part} → Template p → p.Result → Prop
  | quoted {id id' : ObjectId} {head : Symbol} {v : Value} :
      head.keyword = some (.form .quote) → Written makesLists parameters (.quoted v)
        (.cons id (.symbol head) (.cons id' v .nil))
  | parameter {symbol : Symbol} : symbol ∈ parameters →
      Written makesLists parameters (.parameter symbol) (.symbol symbol)
  | list {id : ObjectId} {head : Symbol} {tail : Value} {ts : Template .items} :
      makesLists head → head ∉ parameters → Written makesLists parameters ts tail.items →
        Written makesLists parameters (.list ts) (.cons id (.symbol head) tail)
  | none : Written makesLists parameters .none []
  | more {t : Template .form} {ts : Template .items} {form : Value} {forms : List Value} :
      Written makesLists parameters t form → Written makesLists parameters ts forms →
        Written makesLists parameters (.more t ts) (form :: forms)

end Template

/-! ### Frames inside of a global frame -/

namespace Store

/-- A symbol is bound in a global frame to the function that makes lists, and it is not the name of
a special form. -/
def MakesLists (s : Store) (g : FrameId) (symbol : Symbol) : Prop :=
  symbol.specialForm? = none ∧ ∃ n : Native, s.bound? symbol g = some (.function (.native n)) ∧
    n.body = .list ∧ ∀ k, n.arity.Takes k

/-- A frame with these bindings extends a global frame. -/
structure Inside (s : Store) (g env : FrameId) (values : Bindings Value) : Prop where
  hasGlobal : s.HasGlobal g
  frame : ∃ f, s.frames[env]? = some f ∧ f.outer = some g ∧ f.values = values

variable {s t : Store} {g env : FrameId} {values : Bindings Value}

theorem Grown.inside (h : s.Grown t) (hin : s.Inside g env values) : t.Inside g env values := by
  obtain ⟨f, hf, houter, hvalues⟩ := hin.frame
  exact ⟨h.hasGlobal hin.hasGlobal, f, h.frames hf, houter, hvalues⟩

theorem Grown.bound?_global (h : s.Grown t) (hg : s.HasGlobal g) (symbol : Symbol) :
    t.bound? symbol g = s.bound? symbol g := by
  obtain ⟨f, hf, -⟩ := hg
  simp only [Store.bound?, Store.frame, Array.getD_eq_getD_getElem?, h.frames hf, hf]

/-- A symbol is looked up in two frames. -/
theorem Inside.lookup? (h : s.Inside g env values) (symbol : Symbol) :
    s.lookup? env symbol = (values.get? symbol).or (s.bound? symbol g) := by
  obtain ⟨f, hf, houter, rfl⟩ := h.frame
  obtain ⟨f', hf', houter'⟩ := h.hasGlobal
  obtain ⟨henv, -⟩ := Array.getElem?_eq_some_iff.mp hf
  obtain ⟨hg, -⟩ := Array.getElem?_eq_some_iff.mp hf'
  have hne : env ≠ g := by
    rintro rfl
    cases hf.symm.trans hf'
    cases houter.symm.trans houter'
  -- two frames are enough for the chain to be followed to its end
  obtain ⟨n, hn⟩ : ∃ n, s.frames.size = n + 2 := ⟨s.frames.size - 2, by grind⟩
  have hchain : s.chain env = [env, g] := by
    simp only [Store.chain, hn, chainWithin, hf, houter, hf', houter']
  have hbound : s.bound? symbol env = f.values.get? symbol := by
    simp only [Store.bound?, Store.frame, Array.getD_eq_getD_getElem?, hf, Option.getD_some]
  rw [Store.lookup?, hchain, List.findSome?_cons, hbound, List.findSome?_cons,
    List.findSome?_nil]
  cases f.values.get? symbol <;> cases s.bound? symbol g <;> rfl

theorem Inside.valueOf (h : s.Inside g env values) {symbol : Symbol} {v : Value}
    (hv : (values.get? symbol).or (s.bound? symbol g) = some v) : s.valueOf env symbol = .ok v := by
  rw [Store.valueOf, h.lookup?, hv]

/-- To enter a closure only adds a frame. -/
theorem Grown.enter (h : s.Grown t) (i : FrameId) (values : Bindings Value) (next : ObjectId) :
    s.Grown (t.enter i values next) := by
  refine ⟨?_, fun {j f} hf => ?_, h.closures, h.size, h.constants⟩
  · exact congrArg (fun u : Store => { u with
      frames := (t.enter i values next).frames, nextId := next }) h.same
  · have hold := h.frames hf
    obtain ⟨hsize, -⟩ := Array.getElem?_eq_some_iff.mp hold
    show (t.frames.push _)[j]? = some f
    rw [Array.getElem?_push, if_neg (Nat.ne_of_lt hsize), hold]

theorem SameNames.enter (hg : s.HasGlobal g) (i : FrameId) (values : Bindings Value)
    (next : ObjectId) : SameNames g s (s.enter i values next) := by
  have hrealm := ((Grown.refl s).enter i values next).realmOf hg
  refine ⟨hrealm, rfl, ?_⟩
  simp only [Store.symbols, Store.realm, hrealm]
  rfl

theorem inside_enter (hg : s.HasGlobal g) (values : Bindings Value) (next : ObjectId) :
    (s.enter g values next).Inside g s.frames.size values := by
  refine ⟨((Grown.refl s).enter g values next).hasGlobal hg, ?_⟩
  exact ⟨⟨s.realmOf g, some g, values, []⟩, Array.getElem?_push_size, rfl, rfl⟩

end Store

/-! ### Evaluation of templates -/

section Evaluation

open Run

variable {s : Store} {g env : FrameId} {values : Bindings Value} {makesLists : Symbol → Prop}
  {parameters : List Symbol} {content : Symbol → Value}

/-- What evaluating a template settles to: what is made by it. -/
def Template.Evaluates (s : Store) (g env : FrameId) (content : Symbol → Value) :
    {p : Part} → Template p → p.Result → Prop
  | .form, t, form => Settles s g True (fun r => r.map Value.bare = some (t.fill content))
      fun self _ => self (.eval form env)
  | .items, ts, forms => Settles s g True
      (fun r => r.map (List.map Value.bare) = some (ts.fill content))
      fun self _ => forms.mapM fun form => self (.eval form env)

/-- The value of a symbol. -/
theorem Run.Settles.symbol (hin : s.Inside g env values) {symbol : Symbol} {v : Value}
    (hv : (values.get? symbol).or (s.bound? symbol g) = some v) :
    Settles s g True (fun r => r = some v) fun self _ => self (.eval (.symbol symbol) env) := by
  refine .call (fun _ => rfl) ?_
  refine (Settles.read (P := fun r => r = some (.ok v)) fun t ht => ?_).bind id ?_ (by rintro ⟨⟩)
  · rw [← ht.bound?_global hin.hasGlobal] at hv
    exact congrArg some ((ht.inside hin).valueOf hv)
  · rintro x ⟨⟩
    exact .ofExcept rfl

theorem Run.Settles.quoted {head : Symbol} (hquote : head.keyword = some (.form .quote))
    (id id' : ObjectId) (v : Value) :
    Settles s g True (fun r => r = some v)
      fun self _ => self (.eval (.cons id (.symbol head) (.cons id' v .nil)) env) := by
  refine .call (fun _ => rfl) ?_
  have hspecial : specialHead? (.symbol head) = some (.quote, head.name) := by
    rw [specialHead?, Symbol.specialForm?, hquote]
    rfl
  simp only [perform, Run.form, hspecial]
  refine (Settles.ofExcept (B := True) (P := fun r => r = some [v]) rfl).bind (fun h => h) ?_
    (by rintro ⟨⟩)
  rintro args ⟨⟩
  exact .pure rfl

/-- The function that makes lists. -/
theorem Run.Settles.applyList {n : Native} (hbody : n.body = .list) (hn : ∀ k, n.arity.Takes k)
    (args : List Value) :
    Settles s g True (fun r => r.map Value.bare = some (Value.bareList args))
      fun self _ => self (.apply (.native n) args env) := by
  refine .call (fun _ => rfl) ?_
  simp only [perform, apply_native_of_takes (hn _), hbody]
  exact .list fun v hv => congrArg some hv

/-- A template is evaluated to what is made by it, where its parameters are bound. -/
theorem Template.Written.evaluates (hin : s.Inside g env values)
    (hlists : ∀ symbol, makesLists symbol → s.MakesLists g symbol)
    (hbound : ∀ symbol ∈ parameters, ∃ v, values.get? symbol = some v ∧ v.bare = content symbol)
    (hfree : ∀ symbol ∉ parameters, values.get? symbol = .none) {p : Part} {t : Template p}
    {x : p.Result} (h : t.Written makesLists parameters x) : t.Evaluates s g env content x := by
  induction h with
  | quoted hquote =>
    exact (Run.Settles.quoted hquote _ _ _).mono fun r hr => congrArg (Option.map Value.bare) hr
  | parameter hmem =>
    obtain ⟨v, hv, hcontent⟩ := hbound _ hmem
    refine (Run.Settles.symbol hin (by rw [hv]; rfl)).mono fun r hr => ?_
    rw [hr]
    exact congrArg some hcontent
  | @list id head tail ts hhead hnot _ ih =>
    obtain ⟨hspecial, n, hn, hbody, harity⟩ := hlists head hhead
    have hplain : specialHead? (.symbol head) = .none := by
      simp only [specialHead?, hspecial, Option.map_none]
    refine .call (fun _ => rfl) ?_
    simp only [perform, Run.form, hplain, Run.call]
    -- the function is found, the elements are made, and then the list
    have hfound : (values.get? head).or (s.bound? head g) = some (.function (.native n)) := by
      rw [hfree head hnot, hn]
      rfl
    refine (Run.Settles.symbol hin hfound).bind (fun h => h) ?_ (by rintro ⟨⟩)
    rintro f ⟨⟩
    refine ih.bind (fun h => h) (fun args hargs => ?_) (by rintro ⟨⟩)
    refine (Run.Settles.applyList hbody harity args).mono fun r hr => ?_
    rw [hr]
    refine congrArg some (Value.bareList_congr ?_)
    rw [← Option.some.inj hargs]
    simp
  | none => exact .pure rfl
  | more _ _ ih ih' =>
    simp only [Template.Evaluates, List.mapM_cons]
    refine ih.bind id (fun v hv => ?_) (by rintro ⟨⟩)
    refine ih'.bind id (fun vs hvs => .pure ?_) (by rintro ⟨⟩)
    rw [Template.fill, ← Option.some.inj hv, ← Option.some.inj hvs]
    rfl

/-- The value of several templates as a body is that of the last one. -/
theorem Template.Written.body (hin : s.Inside g env values)
    (hlists : ∀ symbol, makesLists symbol → s.MakesLists g symbol)
    (hbound : ∀ symbol ∈ parameters, ∃ v, values.get? symbol = some v ∧ v.bare = content symbol)
    (hfree : ∀ symbol ∉ parameters, values.get? symbol = .none) {ts : Template .items}
    {forms : List Value} (h : ts.Written makesLists parameters forms) :
    Settles s g True (fun r => r.map Value.bare = some ((ts.fill content).getLastD .nil))
      fun self _ => Run.body self forms env := by
  -- for any value before, since the last form's value replaces it
  have hfold : ∀ (forms : List Value) (ts : Template .items) (v : Value),
      ts.Written makesLists parameters forms →
        Settles s g True (fun r => r.map Value.bare = some ((ts.fill content).getLastD v.bare))
          fun self _ => forms.foldlM (fun _ form => self (.eval form env)) v := by
    intro forms
    induction forms with
    | nil =>
      intro ts v h
      cases h with
      | none => exact .pure rfl
    | cons form forms ih =>
      intro ts v h
      cases h with
      | more ht hts =>
        simp only [List.foldlM_cons]
        refine (ht.evaluates hin hlists hbound hfree).bind id (fun w hw => ?_) (by rintro ⟨⟩)
        refine (ih _ w hts).mono fun r hr => ?_
        rw [hr, Template.fill, ← Option.some.inj hw, List.getLastD_cons]
  exact hfold forms ts .nil h

end Evaluation

/-! ### Macros with templates for bodies -/

/-- The content of what a parameter is bound to in a call with arguments of these contents. -/
def Parameters.content (p : Parameters) (args : List Value) (symbol : Symbol) : Value :=
  if p.rest = some symbol then Value.bareList (args.drop p.positional.length)
  else ((p.positional.zip args).reverse.lookup symbol).getD .nil

/-- In a call every parameter is bound, to what its content says, and nothing else is. -/
theorem Parameters.Bound.content {p : Parameters} {args : List Value} {values : Bindings Value}
    (h : p.Bound args values) (htakes : p.arity.Takes args.length) :
    (∀ symbol ∈ p.names, ∃ v, values.get? symbol = some v ∧
      v.bare = p.content (args.map Value.bare) symbol) ∧
    ∀ symbol ∉ p.names, values.get? symbol = none := by
  have hlookup : ∀ (pairs : List (Symbol × Value)) (symbol : Symbol),
      (pairs.map (Prod.map id Value.bare)).lookup symbol =
        (pairs.lookup symbol).map Value.bare := by
    intro pairs symbol
    induction pairs with
    | nil => rfl
    | cons pair pairs ih =>
      obtain ⟨a, v⟩ := pair
      rw [List.map_cons, Prod.map_apply, List.lookup_cons, List.lookup_cons, ih]
      simp only [id_eq]
      cases symbol == a <;> rfl
  refine ⟨fun symbol hmem => ?_, fun symbol hnot => ?_⟩
  · -- the rest parameter gets the list of what is left, any other its own argument
    by_cases hrest : p.rest = some symbol
    · obtain ⟨list, hget, hcars, htail⟩ := h.rest symbol hrest
      refine ⟨list, hget, ?_⟩
      have hcontent := Value.bare_of_cars list list.cars rfl
      rw [htail] at hcontent
      rw [Parameters.content, if_pos hrest, ← List.map_drop, ← hcars, ← hcontent]
      exact Value.bareList_congr (by simp)
    · have hpositional : symbol ∈ p.positional := by
        refine (List.mem_append.mp hmem).resolve_right fun hin => hrest ?_
        exact Option.mem_toList.mp hin
      rw [h.positional symbol hrest, Parameters.content, if_neg hrest, List.zip_map_right,
        ← List.map_reverse, hlookup]
      rcases hv : (p.positional.zip args).reverse.lookup symbol with - | v
      · -- there are as many arguments as parameters, so each has one
        rw [← List.map_fst_zip (Parameters.length_le_of_takes htakes)] at hpositional
        obtain ⟨pair, hpair, rfl⟩ := List.mem_map.mp hpositional
        have hne := List.lookup_eq_none_iff.mp hv pair (List.mem_reverse.mpr hpair)
        simp at hne
      · exact ⟨v, rfl, rfl⟩
  · have hrest : symbol ∉ p.rest := fun hin =>
      hnot (List.mem_append.mpr (.inr (Option.mem_toList.mpr hin)))
    rw [h.positional symbol hrest, List.lookup_eq_none_iff]
    intro pair hpair
    have hmem : pair.1 ∈ p.positional :=
      (List.of_mem_zip (List.mem_reverse.mp hpair)).1
    simp only [bne_iff_ne, ne_eq]
    rintro rfl
    exact hnot (List.mem_append.mpr (.inl hmem))

/-- A closure that fills in a template: that is its body, and no parameter is a constant. -/
structure Closure.FillsIn (c : Closure) (s : Store) (g : FrameId) (ts : Template .items) :
    Prop where
  env : c.env = g
  free : ∀ symbol ∈ c.params.names, s.isConstant g symbol = false
  body : ts.Written (s.MakesLists g) c.params.names c.body

namespace Store

/-- What macros make of argument forms that fill in templates: the last one filled in, if there are
as many arguments as the parameters say. -/
def templateResults (s : Store) (templates : Nat → Template .items) (index : Nat) : Expander :=
  fun args =>
    let p := (s.closure index).params
    if p.arity.Takes args.length then
      .form (((templates index).fill (p.content args)).getLastD .nil)
    else .failure

variable {s t : Store} {g : FrameId} {templates : Nat → Template .items}

theorem Grown.closure_eq (h : s.Grown t) {index : Nat} {c : Closure}
    (hc : s.closures[index]? = some c) : t.closure index = c := by
  rw [Store.closure, Array.getD_eq_getD_getElem?, h.closures hc]
  rfl

/-- A macro fills in its template, or refuses the number of arguments. -/
theorem settles_fillsIn (hg : s.HasGlobal g) {index : Nat} {c : Closure}
    (hc : s.closures[index]? = some c) {ts : Template .items} (hfills : c.FillsIn s g ts)
    (args : List Value) : Run.Settles s g True
      (fun r => (if c.params.arity.Takes args.length then
          Unfolding.form ((ts.fill (c.params.content (args.map Value.bare))).getLastD .nil)
        else .failure) = .ofOption (r.map Value.bare))
      fun self _ => Run.callClosure self index args := by
  by_cases htakes : c.params.arity.Takes args.length
  · -- the body is evaluated in a new frame
    simp only [if_pos htakes]
    refine .entered fun t ht => ?_
    have hfree : ∀ symbol ∈ c.params.names, t.isConstant c.env symbol = false := by
      intro symbol hmem
      have hs := hfills.free symbol hmem
      rw [Store.isConstant, Store.realm] at hs ⊢
      rw [hfills.env, ht.realmOf hg, ht.constants, hs]
    obtain ⟨values, next, hbound, heq⟩ := Run.callClosure_enters (ht.closure_eq hc) htakes hfree
    obtain ⟨hparameters, hothers⟩ := hbound.content htakes
    rw [hfills.env] at heq
    have hgrown := ht.enter g values next
    -- the new frame binds parameters only, so the functions that make lists are found as before
    have hlists : ∀ symbol, s.MakesLists g symbol →
        (t.enter g values next).MakesLists g symbol := by
      rintro symbol ⟨hspecial, n, hn, hlist⟩
      exact ⟨hspecial, n, (hgrown.bound?_global hg symbol).trans hn, hlist⟩
    have hbody := hfills.body.body (inside_enter (ht.hasGlobal hg) values next) hlists hparameters
      hothers
    exact ⟨_, _, hgrown, .enter (ht.hasGlobal hg) g values next,
      hbody.mono fun r hr => congrArg Unfolding.ofOption hr.symm, fun self _ => heq self⟩
  · simp only [if_neg htakes]
    obtain ⟨bound, least, hviolates⟩ := Arity.exists_violates_iff.mpr htakes
    exact .refused
      (fun t ht => ⟨_, fun self _ => Run.callClosure_of_violates (ht.closure_eq hc) hviolates self⟩)
      rfl

/-- Macros that fill in templates have no side effects, and always come to an end. -/
theorem pureExpanders_of_templates (hg : s.HasGlobal g)
    (h : ∀ head index, s.expander? g head = some index → ∃ c, s.closures[index]? = some c ∧
      c.FillsIn s g (templates index)) : s.PureExpanders g (s.templateResults templates) := by
  have hsettles : ∀ {head index}, s.expander? g head = some index → ∀ args : List Value,
      Run.Settles s g True
        (fun r => s.templateResults templates index (args.map Value.bare) =
          .ofOption (r.map Value.bare)) fun self _ => Run.callClosure self index args := by
    intro head index hindex args
    obtain ⟨c, hc, hfills⟩ := h head index hindex
    simp only [templateResults, (Grown.refl s).closure_eq hc, List.length_map]
    exact settles_fillsIn hg hc hfills args
  exact ⟨fun hindex rounds calls args => (hsettles hindex args).ends rounds calls 0,
    fun hindex args _ t ht => ((hsettles hindex args).halts trivial t ht).exists_finished⟩

end Store

end PocketLisp
