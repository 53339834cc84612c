import LiveScene.Live.Renderer
import LiveScene.Proofs.Live.Forms

/-!
# Bodies of answers

A body holds a whole result or a bare list of figures, and records may be written
as objects or as arrays. `RenderedFigure.Form` and `RenderResult.Form` are the
values that a decoder takes for a figure and for a result
(`RenderedFigure.ofJson?_eq_some_iff`, `RenderResult.ofJson?_eq_some_iff`).

As an array, a result starts with an array of figures, and a list of figures with
a figure. An array that is a figure starts with a text, which no figure is, so
nothing is both (`ofJson?_or_figures?`). So it does not matter which of the two a
body is tried as first (`bodies_apart`).
-/

namespace LiveScene.Scene

open Json

/-! ## Figures -/

namespace RenderedFigure

/-- The names of the fields. -/
def fieldNames : List String := ["svg", "left", "top", "width", "height"]

/-- The fields in their order. -/
def toArray (f : RenderedFigure) : Json :=
  .arr [.str f.svg, .float f.left, .float f.top, .float f.width, .float f.height]

/-- The values that are a figure: an object with a field of each name, in any order and among
others, or an array of the fields. Whole numbers count as floats. -/
inductive Form (f : RenderedFigure) : Json → Prop
  | object {fields : List (String × Json)} {left top width height : Json}
    (once : ∀ n ∈ fieldNames, repeats n fields = false)
    (svg : fields.lookup "svg" = some (.str f.svg))
    (left_eq : fields.lookup "left" = some left) (top_eq : fields.lookup "top" = some top)
    (width_eq : fields.lookup "width" = some width)
    (height_eq : fields.lookup "height" = some height)
    (hleft : left.float? = some f.left) (htop : top.float? = some f.top)
    (hwidth : width.float? = some f.width) (hheight : height.float? = some f.height) :
    Form f (.obj fields)
  | array {left top width height : Json} (hleft : left.float? = some f.left)
    (htop : top.float? = some f.top) (hwidth : width.float? = some f.width)
    (hheight : height.float? = some f.height) :
    Form f (.arr [.str f.svg, left, top, width, height])

variable {f : RenderedFigure} {v : Json}

/-- The forms of a figure are all that is decoded to it. -/
theorem ofJson?_eq_some_iff : ofJson? v = some f ↔ Form f v := by
  constructor
  · intro h
    simp only [ofJson?, Option.bind_eq_bind, Option.bind_eq_some_iff, Option.pure_def,
      Option.some.injEq, required_eq_some_iff, str?_eq_some_iff] at h
    obtain ⟨slot, hslot, _, ⟨_, hsvg, rfl⟩, _, ⟨left, hleft, hl⟩, _, ⟨top, htop, ht⟩,
      _, ⟨width, hwidth, hw⟩, _, ⟨height, hheight, hh⟩, rfl⟩ := h
    cases v with
    | obj fields =>
      simp only [record?] at hslot
      split_ifs at hslot with hrepeats
      obtain rfl := Option.some.inj hslot
      have honce : ∀ n ∈ fieldNames, repeats n fields = false := by
        simpa [fieldNames] using hrepeats
      exact .object honce hsvg hleft htop hwidth hheight hl ht hw hh
    | arr items =>
      simp only [record?] at hslot
      split_ifs at hslot with hlength
      obtain rfl := Option.some.inj hslot
      rcases items with _ | ⟨_, _ | ⟨_, _ | ⟨_, _ | ⟨_, _ | ⟨_, _ | _⟩⟩⟩⟩⟩
      case cons.cons.cons.cons.cons.nil =>
        simp only [List.zip_cons_cons, List.zip_nil_right, List.lookup_cons, beq_self_eq_true,
          String.reduceBEq, Option.some.injEq] at hsvg hleft htop hwidth hheight
        subst hsvg hleft htop hwidth hheight
        exact .array hl ht hw hh
      all_goals
        simp only [List.length_cons, List.length_nil] at hlength
        omega
    | _ => cases hslot
  · rintro (⟨once, svg, left, top, width, height, hl, ht, hw, hh⟩ | ⟨hl, ht, hw, hh⟩)
    · simp only [fieldNames, List.forall_mem_cons] at once
      simp [ofJson?, record?, once, Json.required, svg, left, top, width, height, hl, ht, hw, hh,
        Json.str?]
    · simp [ofJson?, record?, Json.required, List.lookup_cons, hl, ht, hw, hh, Json.str?]

/-- What a finite figure is written as, one way or the other, is a form of it. -/
theorem form_settled (h : f.finite = true) (hv : v = f.toJson ∨ v = f.toArray) :
    Form f v.settled := by
  rcases hv with rfl | rfl
  · rw [← ofJson?_eq_some_iff, readsBack, if_pos h]
  · simp only [finite, Bool.and_eq_true] at h
    simp only [toArray, settled, settledItems, h, if_true]
    exact .array rfl rfl rfl rfl

end RenderedFigure

/-! ## Lists of figures -/

/-- The values that are a list of figures: an array with a form of each. -/
def FiguresForm (figures : List RenderedFigure) (v : Json) : Prop :=
  ∃ items, v = .arr items ∧ List.Forall₂ RenderedFigure.Form figures items

/-- So it is for a list of figures. -/
theorem figures?_eq_some_iff {figures : List RenderedFigure} {v : Json} :
    Json.list? RenderedFigure.ofJson? v = some figures ↔ FiguresForm figures v :=
  list?_eq_some_iff RenderedFigure.ofJson?_eq_some_iff

/-- What finite figures are written as, each in its own way, is a list of them. -/
theorem figuresForm_settled {figures : List RenderedFigure} {items : List Json}
    (hwritten : List.Forall₂ (fun f v => v = f.toJson ∨ v = f.toArray) figures items)
    (h : figures.all RenderedFigure.finite = true) :
    FiguresForm figures (settled (.arr items)) := by
  refine ⟨items.map settled, by rw [settled, settledItems_eq_map], ?_⟩
  rw [List.all_eq_true] at h
  rw [List.forall₂_map_right_iff]
  exact ((List.forall₂_and_left _ _).2 ⟨h, hwritten⟩).imp fun _ _ h =>
    RenderedFigure.form_settled h.1 h.2

/-! ## Results -/

namespace RenderResult

/-- The values that are a result: an object with figures and perhaps a timing, in any order and
among others, or an array of the figures and perhaps the timing. No timing counts as `null`. -/
inductive Form (r : RenderResult) : Json → Prop
  | object {fields : List (String × Json)} {v : Json}
    (once : ∀ n ∈ ["figures", "perf"], repeats n fields = false)
    (figures_eq : fields.lookup "figures" = some v) (figures : FiguresForm r.figures v)
    (perf : r.perf = ((fields.lookup "perf").getD .null).settled) : Form r (.obj fields)
  | array {v : Json} {rest : List Json} (figures : FiguresForm r.figures v)
    (rest_le : rest.length ≤ 1) (perf : r.perf = (rest.head?.getD .null).settled) :
    Form r (.arr (v :: rest))

variable {r : RenderResult} {v : Json}

/-- The forms of a result are all that is decoded to it. -/
theorem ofJson?_eq_some_iff : ofJson? v = some r ↔ Form r v := by
  constructor
  · intro h
    simp only [ofJson?, Option.bind_eq_bind, Option.bind_eq_some_iff, Option.pure_def,
      Option.some.injEq, required_eq_some_iff, figures?_eq_some_iff] at h
    obtain ⟨slot, hslot, figures, ⟨w, hfigures, hform⟩, rfl⟩ := h
    cases v with
    | obj fields =>
      simp only [record?] at hslot
      split_ifs at hslot with hrepeats
      obtain rfl := Option.some.inj hslot
      exact .object (by simpa using hrepeats) hfigures hform rfl
    | arr items =>
      simp only [record?] at hslot
      split_ifs at hslot with hlength
      obtain rfl := Option.some.inj hslot
      rcases items with _ | ⟨_, _ | ⟨_, _ | _⟩⟩
      case cons.nil =>
        simp only [List.zip_cons_cons, List.lookup_cons_self, Option.some.injEq] at hfigures
        exact .array (hfigures ▸ hform) (Nat.zero_le 1) rfl
      case cons.cons.nil =>
        simp only [List.zip_cons_cons, List.lookup_cons_self, Option.some.injEq] at hfigures
        exact .array (hfigures ▸ hform) (Nat.le_refl 1) rfl
      all_goals simp at hlength
    | _ => cases hslot
  · rintro (⟨once, figures_eq, figures, perf⟩ | ⟨figures, rest_le, perf⟩)
    · simp only [List.forall_mem_cons] at once
      have hfigures := figures?_eq_some_iff.2 figures
      simp [ofJson?, record?, once, Json.required, figures_eq, hfigures, ← perf]
    · rename_i w rest
      have hfigures := figures?_eq_some_iff.2 figures
      obtain ⟨_, _⟩ := r
      obtain rfl := perf
      rcases rest with _ | ⟨_, _ | _⟩
      case cons.cons => simp at rest_le
      all_goals simp [ofJson?, record?, Json.required, hfigures, List.lookup_cons]

/-- What a result of finite figures is written as is a form of it. -/
theorem form_settled (hfigures : r.figures.all RenderedFigure.finite = true)
    (hperf : r.perf.settled = r.perf) : Form r r.toJson.settled := by
  have figures := RenderedFigure.readsBack.list? carrier_settled r.figures
  rw [if_pos hfigures] at figures
  rw [← ofJson?_eq_some_iff]
  simp [toJson, ofJson?, carrier_settled.record?, List.lookup_cons, Json.required, figures, hperf]

end RenderResult

/-! ## Bodies -/

/-- No figure is a text. -/
theorem RenderedFigure.Form.ne_str {f : RenderedFigure} {s : String} : ¬ f.Form (.str s) :=
  nofun

/-- Nothing is both a result and a list of figures: as arrays, the one would start with an array
that is a figure, and so with a text in the place of a figure. -/
theorem ofJson?_or_figures? (v : Json) :
    RenderResult.ofJson? v = none ∨ Json.list? RenderedFigure.ofJson? v = none := by
  by_contra hboth
  simp only [not_or, ← ne_eq, Option.ne_none_iff_exists'] at hboth
  obtain ⟨⟨r, hr⟩, figures, hfigures⟩ := hboth
  rw [RenderResult.ofJson?_eq_some_iff] at hr
  obtain ⟨items, rfl, hitems⟩ := figures?_eq_some_iff.1 hfigures
  cases hr with
  | array hinner =>
    obtain ⟨inner, rfl, hinner⟩ := hinner
    cases hitems with
    | cons hfirst =>
      cases hfirst with
      | array =>
        generalize r.figures = drawn at hinner
        cases hinner with
        | cons htext => exact RenderedFigure.Form.ne_str htext

/-- A body is taken for a result where it has the form of one, or of figures without a timing.
-/
theorem bodyResult?_eq_some_iff {v : Json} {r : RenderResult} :
    bodyResult? v = some r ↔ r.Form v ∨ FiguresForm r.figures v ∧ r.perf = .null := by
  have hfigures : (Json.list? RenderedFigure.ofJson? v).map (RenderResult.mk · .null) = some r ↔
      FiguresForm r.figures v ∧ r.perf = .null := by
    rw [Option.map_eq_some_iff, ← figures?_eq_some_iff]
    constructor
    · rintro ⟨figures, h, rfl⟩
      exact ⟨h, rfl⟩
    · rintro ⟨h, hperf⟩
      exact ⟨r.figures, h, by rw [← hperf]⟩
  rw [← RenderResult.ofJson?_eq_some_iff, ← hfigures, bodyResult?]
  rcases ofJson?_or_figures? v with h | h <;> simp [h]

/-- It does not matter which of the two a body is tried as first. -/
theorem bodyResult?_eq_or (v : Json) :
    bodyResult? v = ((Json.list? RenderedFigure.ofJson? v).map (RenderResult.mk · .null)).or
      (RenderResult.ofJson? v) := by
  rw [bodyResult?]
  rcases ofJson?_or_figures? v with h | h <;> simp [h]

end LiveScene.Scene

namespace LiveScene.Live

open Scene

variable {status : Nat} {body : String}

/-- An answer without an error gives a result where its body is JSON and is taken for it. -/
theorem answerResult_eq_ok_iff (h : isSuccess status = true) {r : RenderResult} :
    answerResult status body = .ok r ↔ ∃ v, Json.parse? body = some v ∧ bodyResult? v = some r := by
  rw [answerResult, if_pos h, parseBody]
  cases Json.parse? body with
  | none => simp
  | some v => cases hv : bodyResult? v <;> simp [hv]

/-- It is a mismatch, and keeps the body, where that is not JSON or is taken for no result. -/
theorem answerResult_eq_mismatch_iff (h : isSuccess status = true) :
    (∃ fault, answerResult status body = .error (.mismatch fault body)) ↔
      ∀ v, Json.parse? body = some v → bodyResult? v = none := by
  rw [answerResult, if_pos h, parseBody]
  cases Json.parse? body with
  | none => simp
  | some v => cases hv : bodyResult? v <;> simp [hv]

/-- The bodies that a successful answer may have. No value is a result and a list of figures at
once, so either may be tried first. A body is taken for a result exactly if it holds a form of it,
or a list of its figures if it has no timing; results of finite figures and lists of them are
written in such forms. Any other body is a mismatch of protocols that keeps the body. -/
theorem bodies_apart (h : isSuccess status = true) :
    (∀ v, RenderResult.ofJson? v = none ∨ Json.list? RenderedFigure.ofJson? v = none) ∧
    (∀ v, bodyResult? v = ((Json.list? RenderedFigure.ofJson? v).map (RenderResult.mk · .null)).or
      (RenderResult.ofJson? v)) ∧
    (∀ body r, answerResult status body = .ok r ↔
      ∃ v, Json.parse? body = some v ∧ (r.Form v ∨ FiguresForm r.figures v ∧ r.perf = .null)) ∧
    (∀ r : RenderResult, r.figures.all RenderedFigure.finite = true → r.perf.settled = r.perf →
      ∀ body, Json.parse? body = some r.toJson.settled → answerResult status body = .ok r) ∧
    (∀ figures items, List.Forall₂ (fun f v => v = f.toJson ∨ v = f.toArray) figures items →
      figures.all RenderedFigure.finite = true →
      ∀ body, Json.parse? body = some (Json.settled (.arr items)) →
        answerResult status body = .ok ⟨figures, .null⟩) ∧
    ∀ body, (∃ fault, answerResult status body = .error (.mismatch fault body)) ↔
      ∀ v, Json.parse? body = some v →
        RenderResult.ofJson? v = none ∧ Json.list? RenderedFigure.ofJson? v = none := by
  have hok : ∀ body r, answerResult status body = .ok r ↔
      ∃ v, Json.parse? body = some v ∧ (r.Form v ∨ FiguresForm r.figures v ∧ r.perf = .null) := by
    intro body r
    simp only [answerResult_eq_ok_iff h, bodyResult?_eq_some_iff]
  refine ⟨ofJson?_or_figures?, bodyResult?_eq_or, hok, ?_, ?_, fun body => ?_⟩
  · intro r hfigures hperf body hbody
    exact (hok body r).2 ⟨_, hbody, .inl (r.form_settled hfigures hperf)⟩
  · intro figures items hwritten hfinite body hbody
    exact (hok body _).2 ⟨_, hbody, .inr ⟨figuresForm_settled hwritten hfinite, rfl⟩⟩
  · rw [answerResult_eq_mismatch_iff h]
    simp [bodyResult?]

/-- A figure in two ways, as older renderers send them. -/
def dotsBody : String :=
  "[\x7b\"left\":0,\"top\":0.5,\"svg\":\"dot\",\"width\":10,\"height\":2.5\x7d,[\"dot\",0,0.5,10,2.5]]"

/-- A bare list of figures, a result with a timing, and a body that is neither. -/
theorem bodies_apart_dots :
    let dot : RenderedFigure := ⟨"dot", 0, 0.5, 10, 2.5⟩
    let timed : RenderResult := ⟨[], .obj [("ms", .int 3)]⟩
    isSuccess 200 = true ∧ answerResult 200 dotsBody = .ok ⟨[dot, dot], .null⟩ ∧
      answerResult 200 "\x7b\"figures\":[],\"perf\":\x7b\"ms\":3\x7d\x7d" = .ok timed ∧
      ∃ fault, answerResult 200 "[1]" = .error (.mismatch fault "[1]") := by
  intro dot timed
  have h : isSuccess 200 = true := by decide
  obtain ⟨-, -, hforms, hresult, -, hmismatch⟩ := bodies_apart h
  refine ⟨h, ?_, ?_, ?_⟩
  · have hread : (Json.parse? dotsBody).bind (Json.list? RenderedFigure.ofJson?) =
        some [dot, dot] := by decide +kernel
    obtain ⟨v, hv, hfigures⟩ := Option.bind_eq_some_iff.1 hread
    exact (hforms _ _).2 ⟨v, hv, .inr ⟨figures?_eq_some_iff.1 hfigures, rfl⟩⟩
  · exact hresult timed rfl (by cbv) _ (by cbv)
  · have hparse : Json.parse? "[1]" = some (.arr [.int 1]) := by cbv
    refine (hmismatch _).2 fun v hv => ?_
    obtain rfl : _ = v := Option.some.inj (hparse.symm.trans hv)
    exact ⟨rfl, rfl⟩

/-- An empty list is a list of no figures; with another around it, it is a result without any. -/
example : (Json.parse? "[]").bind RenderResult.ofJson? = none ∧
    (Json.parse? "[[]]").bind (Json.list? RenderedFigure.ofJson?) = none ∧
    (parseBody "[[]]").toOption.map (·.figures) = some [] := by
  decide +kernel

end LiveScene.Live
