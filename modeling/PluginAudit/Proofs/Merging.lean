import PluginAudit.Proofs.Inheritance
import PluginAudit.Proofs.Sameness

namespace PluginAudit

namespace Value

/-- What merging tells apart. -/
inductive Shape where
  | mapping
  | list
  | plain
  deriving DecidableEq, Repr

def shape : Value → Shape
  | .map _ => .mapping
  | .list _ => .list
  | _ => .plain

/-- The value that nested mappings have along a path of keys. -/
def along? (v : Value) : List Value → Option Value
  | [] => some v
  | key :: path =>
    match v with
    | .map entries => (under? key entries).bind fun w => w.along? path
    | _ => none

/-- Wherever both values have something, it is of one shape. -/
def SameShapes (v w : Value) : Prop :=
  ∀ path x y, v.along? path = some x → w.along? path = some y → x.shape = y.shape

section Shapes

variable {v w x y : Value} {k : Value} {entries others : List (Value × Value)}

theorem along?_map_cons (key : Value) (path : List Value) (entries : List (Value × Value)) :
    (Value.map entries).along? (key :: path) =
      (under? key entries).bind fun w => w.along? path := rfl

theorem along?_cons_of_not_map (h : v.shape ≠ .mapping) (key : Value) (path : List Value) :
    v.along? (key :: path) = none := by
  cases v <;> first | rfl | exact absurd rfl h

theorem eq_map_of_shape (h : v.shape = .mapping) : ∃ entries, v = .map entries := by
  cases v <;> simp_all [shape]

theorem eq_list_of_shape (h : v.shape = .list) : ∃ items, v = .list items := by
  cases v <;> simp_all [shape]

theorem SameShapes.here (h : SameShapes v w) : v.shape = w.shape :=
  h [] v w rfl rfl

theorem SameShapes.symm (h : SameShapes v w) : SameShapes w v :=
  fun path x y hx hy => (h path y x hy hx).symm

theorem SameShapes.refl (v : Value) : SameShapes v v := by
  intro path x y hx hy
  cases hx.symm.trans hy
  rfl

theorem SameShapes.under (h : SameShapes (.map entries) (.map others))
    (hx : under? k entries = some x) (hy : under? k others = some y) : SameShapes x y := by
  intro path u w hu hw
  refine h (k :: path) u w ?_ ?_
  · rw [along?_map_cons, hx]
    exact hu
  · rw [along?_map_cons, hy]
    exact hw

end Shapes

end Value

namespace Policy

open Value (under? Keyed Proper SameShapes)

section Lists

variable {xs ys zs : List Value}

/-- No value of the list equals `v`. -/
def lacks (xs : List Value) (v : Value) : Bool :=
  !xs.any fun w => w.same v

/-- The second list after the first, without what equals an item of that one. -/
def joined (xs ys : List Value) : List Value :=
  xs ++ ys.filter (lacks xs)

theorem lacks_iff {v : Value} : lacks xs v = true ↔ ∀ w ∈ xs, ¬ w.same v = true := by
  simp [lacks]

theorem lacks_joined (trans : ∀ u ∈ xs, ∀ {w v : Value}, u.same w = true → w.same v = true →
    u.same v = true) (v : Value) : lacks (joined xs ys) v = (lacks xs v && lacks ys v) := by
  rw [Bool.eq_iff_iff, Bool.and_eq_true, lacks_iff, lacks_iff, lacks_iff]
  constructor
  · intro h
    have first : ∀ w ∈ xs, ¬ w.same v = true := fun w hw => h w (List.mem_append_left _ hw)
    refine ⟨first, fun w hw hsame => ?_⟩
    -- What is left out of the second list equals something in the first.
    by_cases hnew : lacks xs w = true
    · exact h w (List.mem_append_right _ (List.mem_filter.2 ⟨hw, hnew⟩)) hsame
    · rw [lacks_iff] at hnew
      push Not at hnew
      obtain ⟨u, hu, huw⟩ := hnew
      exact first u hu (trans u hu huw hsame)
  · rintro ⟨hfirst, hsecond⟩ w hw
    obtain hw | hw := List.mem_append.1 hw
    · exact hfirst w hw
    · exact hsecond w (List.mem_filter.1 hw).1

theorem joined_assoc (trans : ∀ u ∈ xs, ∀ {w v : Value}, u.same w = true → w.same v = true →
    u.same v = true) : joined (joined xs ys) zs = joined xs (joined ys zs) := by
  have later : zs.filter (lacks (joined xs ys)) = (zs.filter (lacks ys)).filter (lacks xs) := by
    rw [List.filter_filter]
    exact List.filter_congr fun v _ => lacks_joined trans v
  calc joined (joined xs ys) zs
      = xs ++ ys.filter (lacks xs) ++ zs.filter (lacks (joined xs ys)) := rfl
    _ = xs ++ (ys.filter (lacks xs) ++ (zs.filter (lacks ys)).filter (lacks xs)) := by
      rw [later, List.append_assoc]
    _ = joined xs (joined ys zs) := by rw [← List.filter_append]; rfl

theorem joined_eq_left (h : ∀ v ∈ ys, ∃ w ∈ xs, w.same v = true) : joined xs ys = xs := by
  rw [joined, List.filter_eq_nil_iff.2, List.append_nil]
  intro v hv hlacks
  obtain ⟨w, hw, hsame⟩ := h v hv
  exact lacks_iff.1 hlacks w hw hsame

end Lists

section Entries

variable {k v : Value} {e : Value × Value} {a b c base own rest : List (Value × Value)}

/-- A value with another, if there is one, merged on top. -/
def topped (v : Value) : Option Value → Value
  | none => v
  | some w => mergeValue (some v) w

/-- An entry with what a mapping has under its key merged on top. -/
def updated (own : List (Value × Value)) (e : Value × Value) : Value × Value :=
  (e.1, topped e.2 (under? e.1 own))

/-- A mapping does not have the key of an entry. -/
def isNew (base : List (Value × Value)) (e : Value × Value) : Bool :=
  lacks (base.map Prod.fst) e.1

/-- The entries of a mapping, each updated, and those of another that are new to it. -/
def overlay (base own : List (Value × Value)) : List (Value × Value) :=
  base.map (updated own) ++ own.filter (isNew base)

theorem isNew_iff : isNew base e = true ↔ ∀ d ∈ base, ¬ d.1.same e.1 = true := by
  rw [isNew, lacks_iff, List.forall_mem_map]

theorem updated_fst (own : List (Value × Value)) (e : Value × Value) : (updated own e).1 = e.1 :=
  rfl

theorem updated_nil : updated [] = id := rfl

theorem keys_overlay (base own : List (Value × Value)) :
    (overlay base own).map Prod.fst = joined (base.map Prod.fst) (own.map Prod.fst) := by
  rw [overlay, joined, List.map_append, List.map_map, List.filter_map]
  rfl

theorem isNew_overlay (hbase : Keyed base) :
    isNew (overlay base own) e = (isNew base e && isNew own e) := by
  rw [isNew, keys_overlay]
  refine lacks_joined (fun u hu w v huw hwv => ?_) e.1
  obtain ⟨d, hd, rfl⟩ := List.mem_map.1 hu
  rw [(Value.same_left (hbase.isKey d hd) huw).2]
  exact hwv

theorem keyed_overlay (hbase : Keyed base) (hown : Keyed own) : Keyed (overlay base own) := by
  constructor
  case isKey =>
    intro e he
    obtain he | he := List.mem_append.1 he
    · obtain ⟨d, hd, rfl⟩ := List.mem_map.1 he
      exact hbase.isKey d hd
    · exact hown.isKey e (List.mem_filter.1 he).1
  case equalsItself =>
    intro e he
    obtain he | he := List.mem_append.1 he
    · obtain ⟨d, hd, rfl⟩ := List.mem_map.1 he
      exact hbase.equalsItself d hd
    · exact hown.equalsItself e (List.mem_filter.1 he).1
  case distinct =>
    refine List.pairwise_append.2 ⟨List.pairwise_map.2 hbase.distinct, hown.distinct.filter _, ?_⟩
    intro d hd e he
    obtain ⟨c, hc, rfl⟩ := List.mem_map.1 hd
    exact isNew_iff.1 (List.mem_filter.1 he).2 c hc

theorem under?_map_updated (hbase : Keyed base) (hown : Keyed own) (k : Value) :
    under? k (base.map (updated own)) = (under? k base).map fun x => topped x (under? k own) := by
  induction base with
  | nil => rfl
  | cons d rest ih =>
    rw [List.map_cons, Value.under?_cons, Value.under?_cons, updated_fst, ih hbase.tail]
    by_cases hk : d.1.same k = true
    · have hd := hown.under?_congr (hbase.isKey d List.mem_cons_self) hk
      rw [if_pos hk, if_pos hk, updated, hd, Option.map_some]
    · rw [if_neg hk, if_neg hk]

theorem under?_filter_isNew (hbase : Keyed base) (h : under? k base = none) :
    under? k (own.filter (isNew base)) = under? k own := by
  rw [under?, under?, List.find?_filter]
  refine congrArg _ (List.find?_congr fun e he => ?_)
  rw [Bool.eq_iff_iff, decide_eq_true_iff]
  refine ⟨And.right, fun hk => ⟨isNew_iff.2 fun d hd hde => ?_, hk⟩⟩
  refine Value.under?_eq_none_iff.1 h d hd ?_
  rw [(Value.same_left (hbase.isKey d hd) hde).2]
  exact hk

/-- What two mappings make together has under a key what they have there, merged. -/
theorem under?_overlay (hbase : Keyed base) (hown : Keyed own) (k : Value) :
    under? k (overlay base own) =
      match under? k base with
      | some x => some (topped x (under? k own))
      | none => under? k own := by
  rw [overlay, Value.under?_append, under?_map_updated hbase hown]
  cases h : under? k base with
  | none => rw [Option.map_none, Option.none_or, under?_filter_isNew hbase h]
  | some x => rw [Option.map_some, Option.some_or]

theorem mergeEntry_eq (hbase : Keyed base) (hown : Keyed [(k, v)]) :
    mergeEntry base k v = overlay base [(k, v)] := by
  have hk : Yaml.isKey k = true := hown.isKey (k, v) List.mem_cons_self
  have not_under {e : Value × Value} (h : ¬ k.same e.1 = true) : updated [(k, v)] e = e := by
    rw [updated, Value.under?_cons, if_neg h]
    rfl
  rw [mergeEntry, Value.insert, overlay, List.filter_singleton]
  by_cases h : (base.any fun e => e.1.same k) = true
  · have old : isNew base (k, v) = false := by
      obtain ⟨e, he, hek⟩ := List.any_eq_true.1 h
      rw [Bool.eq_false_iff]
      exact fun hnew => isNew_iff.1 hnew e he hek
    rw [if_pos h, old, cond_false, List.append_nil]
    refine List.map_congr_left fun e he => ?_
    by_cases hek : e.1.same k = true
    · have hke := Value.same_symm (hbase.isKey e he) hek
      rw [if_pos hek, hbase.find?_of_mem he hek, updated, Value.under?_cons, if_pos hke]
      rfl
    · rw [if_neg hek, not_under fun hke => hek (Value.same_symm hk hke)]
  · have apart : ∀ e ∈ base, ¬ e.1.same k = true := fun e he hek =>
      h (List.any_eq_true.2 ⟨e, he, hek⟩)
    have kept : base.map (updated [(k, v)]) = base := by
      refine (List.map_congr_left fun e he => ?_).trans (List.map_id base)
      exact not_under fun hke => apart e he (Value.same_symm hk hke)
    rw [if_neg h, isNew_iff.2 apart, cond_true, kept, List.find?_eq_none.2 apart, Option.map_none,
      mergeValue_none]

/-- Merging keeps the order of the entries, and appends the new ones. -/
theorem merge_eq (hbase : Keyed base) (hown : Keyed own) : merge base own = overlay base own := by
  induction own generalizing base with
  | nil => simp [merge, overlay, updated_nil]
  | cons e rest ih =>
    obtain ⟨k, v⟩ := e
    have hk : Yaml.isKey k = true := hown.isKey (k, v) List.mem_cons_self
    have apart {d : Value × Value} (hd : d ∈ rest) : ¬ k.same d.1 = true := hown.not_same hd
    have gone {l : Value} (hl : k.same l = true) : under? l rest = none := by
      rw [Value.under?_eq_none_iff]
      intro d hd hdl
      refine apart hd ?_
      rw [(Value.same_left hk hl).2]
      exact Value.same_symm (hown.isKey d (List.mem_cons_of_mem _ hd)) hdl
    have twice : updated rest ∘ updated [(k, v)] = updated ((k, v) :: rest) := by
      funext d
      rw [Function.comp_apply, updated, updated_fst, updated, updated, Value.under?_cons,
        Value.under?_cons]
      by_cases hd : k.same d.1 = true
      · rw [if_pos hd, if_pos hd, gone hd]
        rfl
      · rw [if_neg hd, if_neg hd]
        rfl
    have still : ([(k, v)].filter (isNew base)).map (updated rest) = [(k, v)].filter (isNew base) := by
      refine (List.map_congr_left fun d hd => ?_).trans (List.map_id _)
      obtain rfl := List.mem_singleton.1 (List.mem_filter.1 hd).1
      rw [updated, gone (hown.equalsItself _ List.mem_cons_self)]
      rfl
    have new : rest.filter (isNew (overlay base [(k, v)])) = rest.filter (isNew base) := by
      refine List.filter_congr fun d hd => ?_
      rw [isNew_overlay hbase, Bool.and_eq_left_iff_imp]
      refine fun _ => isNew_iff.2 fun c hc => ?_
      obtain rfl := List.mem_singleton.1 hc
      exact apart hd
    rw [merge_cons, mergeEntry_eq hbase hown.head, ih (keyed_overlay hbase hown.head) hown.tail,
      overlay, new, overlay, List.map_append, List.map_map, twice, still, List.append_assoc,
      ← List.filter_append]
    rfl

end Entries

section Values

variable {x y z : Value} {xs ys : List Value} {a b c : List (Value × Value)}

theorem mergeValue_map (a b : List (Value × Value)) :
    mergeValue (some (.map a)) (.map b) = .map (merge a b) := by
  rw [mergeValue]

theorem mergeValue_list (xs ys : List Value) :
    mergeValue (some (.list xs)) (.list ys) = .list (joined xs ys) := by
  rw [mergeValue]
  rfl

theorem mergeValue_plain (h : y.shape = .plain) (o : Option Value) : mergeValue o y = y := by
  cases y <;> first | (simp only [mergeValue]; done) | cases h

theorem shape_mergeValue (o : Option Value) (y : Value) : (mergeValue o y).shape = y.shape := by
  cases y <;> unfold mergeValue <;> first | rfl | (split <;> rfl)

/-- A mapping whose values are merged in either order is merged in either order. -/
theorem merge_assoc_of (ha : Keyed a) (hb : Keyed b) (hc : Keyed c)
    (values : ∀ e ∈ a, ∀ y z, under? e.1 b = some y → under? e.1 c = some z →
      mergeValue (some (mergeValue (some e.2) y)) z = mergeValue (some e.2) (mergeValue (some y) z)) :
    merge (merge a b) c = merge a (merge b c) := by
  rw [merge_eq ha hb, merge_eq (keyed_overlay ha hb) hc, merge_eq hb hc,
    merge_eq ha (keyed_overlay hb hc)]
  have old : (a.map (updated b)).map (updated c) = a.map (updated (overlay b c)) := by
    rw [List.map_map]
    refine List.map_congr_left fun e he => ?_
    rw [Function.comp_apply, updated, updated_fst, updated, updated, under?_overlay hb hc]
    cases hy : under? e.1 b with
    | none => rfl
    | some y =>
      cases hz : under? e.1 c with
      | none => rfl
      | some z => exact congrArg _ (values e he y z hy hz)
  have second : (b.filter (isNew a)).map (updated c) = (b.map (updated c)).filter (isNew a) := by
    rw [List.filter_map]
    rfl
  have third : c.filter (isNew (overlay a b)) = (c.filter (isNew b)).filter (isNew a) := by
    rw [List.filter_filter]
    exact List.filter_congr fun e _ => isNew_overlay ha
  calc overlay (overlay a b) c
      = (a.map (updated b)).map (updated c) ++ (b.filter (isNew a)).map (updated c) ++
          c.filter (isNew (overlay a b)) := by rw [overlay, overlay, List.map_append]
    _ = a.map (updated (overlay b c)) ++ ((b.map (updated c)).filter (isNew a) ++
          (c.filter (isNew b)).filter (isNew a)) := by rw [old, second, third, List.append_assoc]
    _ = overlay a (overlay b c) := by rw [← List.filter_append]; rfl

/-- Merging three values of one shape everywhere can start at either end. -/
theorem mergeValue_assoc (hx : x.Proper) (hy : y.Proper) (hz : z.Proper) (hxy : SameShapes x y)
    (hxz : SameShapes x z) (hyz : SameShapes y z) :
    mergeValue (some (mergeValue (some x) y)) z = mergeValue (some x) (mergeValue (some y) z) := by
  induction hz generalizing x y with
  | @list zs _ _ =>
    obtain ⟨xs, rfl⟩ := Value.eq_list_of_shape hxz.here
    obtain ⟨ys, rfl⟩ := Value.eq_list_of_shape hyz.here
    cases hx with
    | list items =>
      rw [mergeValue_list, mergeValue_list, mergeValue_list, mergeValue_list,
        joined_assoc fun u hu _ _ => (items u hu).same_trans]
  | @map c hc _ ih =>
    obtain ⟨a, rfl⟩ := Value.eq_map_of_shape hxz.here
    obtain ⟨b, rfl⟩ := Value.eq_map_of_shape hyz.here
    cases hx with
    | map ha avalues =>
      cases hy with
      | map hb bvalues =>
        rw [mergeValue_map, mergeValue_map, mergeValue_map, mergeValue_map, merge_assoc_of ha hb hc]
        intro e he y z hby hcz
        have hax := ha.under?_of_mem he (ha.equalsItself e he)
        obtain ⟨d, hd, -, rfl⟩ := Value.exists_of_under? hby
        obtain ⟨f, hf, -, rfl⟩ := Value.exists_of_under? hcz
        exact ih f hf (avalues e he) (bvalues d hd) (hxy.under hax hby) (hxz.under hax hcz)
          (hyz.under hby hcz)
  | _ => rw [mergeValue_plain rfl, mergeValue_plain rfl, mergeValue_plain rfl]

theorem mergeValue_self (hx : x.Proper) : mergeValue (some x) x = x := by
  induction hx with
  | list items _ =>
    rw [mergeValue_list, joined_eq_left fun v hv => ⟨v, hv, (items v hv).same_self⟩]
  | @map a ha _ ih =>
    have old : a.map (updated a) = a := by
      refine (List.map_congr_left fun e he => ?_).trans (List.map_id a)
      rw [updated, ha.under?_of_mem he (ha.equalsItself e he), topped, ih e he]
      rfl
    have none_new : a.filter (isNew a) = [] := by
      rw [List.filter_eq_nil_iff]
      exact fun e he hnew => isNew_iff.1 hnew e he (ha.equalsItself e he)
    rw [mergeValue_map, merge_eq ha ha, overlay, old, none_new, List.append_nil]
  | _ => exact mergeValue_plain rfl _

theorem nil_merge (ha : Keyed a) : merge [] a = a := by
  have all_new : a.filter (isNew []) = a := List.filter_eq_self.2 fun _ _ => rfl
  rw [merge_eq .nil ha, overlay, all_new]
  rfl

theorem proper_mergeValue (hx : x.Proper) (hy : y.Proper) (hxy : SameShapes x y) :
    (mergeValue (some x) y).Proper := by
  induction hy generalizing x with
  | @list ys yitems _ =>
    obtain ⟨xs, rfl⟩ := Value.eq_list_of_shape hxy.here
    cases hx with
    | list xitems =>
      rw [mergeValue_list]
      refine .list fun v hv => ?_
      obtain hv | hv := List.mem_append.1 hv
      · exact xitems v hv
      · exact yitems v (List.mem_filter.1 hv).1
  | @map b hb bvalues ih =>
    obtain ⟨a, rfl⟩ := Value.eq_map_of_shape hxy.here
    cases hx with
    | map ha avalues =>
      rw [mergeValue_map, merge_eq ha hb]
      refine .map (keyed_overlay ha hb) fun e he => ?_
      obtain he | he := List.mem_append.1 he
      · obtain ⟨d, hd, rfl⟩ := List.mem_map.1 he
        have hax := ha.under?_of_mem hd (ha.equalsItself d hd)
        rw [updated]
        cases hby : under? d.1 b with
        | none => exact avalues d hd
        | some y =>
          obtain ⟨f, hf, -, rfl⟩ := Value.exists_of_under? hby
          exact ih f hf (avalues d hd) (hxy.under hax hby)
      · exact bvalues e (List.mem_filter.1 he).1
  | float hn =>
    rw [mergeValue_plain rfl]
    exact .float hn
  | _ =>
    rw [mergeValue_plain rfl]
    constructor

/-- Along every path, what two values are merged to has the shape of what one of them has there. -/
theorem shape_along?_mergeValue (hx : x.Proper) (hy : y.Proper) (hxy : SameShapes x y)
    {path : List Value} {u : Value} (hu : (mergeValue (some x) y).along? path = some u) :
    ∃ w, (x.along? path = some w ∨ y.along? path = some w) ∧ w.shape = u.shape := by
  induction path generalizing x y with
  | nil =>
    cases hu
    exact ⟨y, .inr rfl, (shape_mergeValue _ y).symm⟩
  | cons key path ih =>
    by_cases hmap : y.shape = .mapping
    · obtain ⟨b, rfl⟩ := Value.eq_map_of_shape hmap
      obtain ⟨a, rfl⟩ := Value.eq_map_of_shape hxy.here
      cases hx with
      | map ha avalues =>
        cases hy with
        | map hb bvalues =>
          rw [mergeValue_map, merge_eq ha hb, Value.along?_map_cons, under?_overlay ha hb] at hu
          rw [Value.along?_map_cons, Value.along?_map_cons]
          cases hax : under? key a with
          | none =>
            rw [hax] at hu
            exact ⟨u, .inr hu, rfl⟩
          | some x =>
            cases hby : under? key b with
            | none =>
              rw [hax, hby] at hu
              exact ⟨u, .inl hu, rfl⟩
            | some y =>
              rw [hax, hby] at hu
              obtain ⟨d, hd, -, rfl⟩ := Value.exists_of_under? hax
              obtain ⟨e, he, -, rfl⟩ := Value.exists_of_under? hby
              exact ih (avalues d hd) (bvalues e he) (hxy.under hax hby) hu
    · rw [Value.along?_cons_of_not_map (by rwa [shape_mergeValue])] at hu
      cases hu

theorem sameShapes_mergeValue (hx : x.Proper) (hy : y.Proper) (hxy : SameShapes x y)
    (hxz : SameShapes x z) (hyz : SameShapes y z) : SameShapes (mergeValue (some x) y) z := by
  intro path u w hu hw
  obtain ⟨v, hv | hv, hshape⟩ := shape_along?_mergeValue hx hy hxy hu
  · exact hshape.symm.trans (hxz path v w hv hw)
  · exact hshape.symm.trans (hyz path v w hv hw)

/-- A value that is merged in once more adds nothing to any list. -/
theorem lists_mergeValue_again (hx : x.Proper) (hy : y.Proper) (hxy : SameShapes x y)
    (path : List Value) (items : List Value) :
    (mergeValue (some (mergeValue (some x) y)) x).along? path = some (.list items) ↔
      (mergeValue (some x) y).along? path = some (.list items) := by
  induction path generalizing x y with
  | nil =>
    by_cases hlist : x.shape = .list
    · obtain ⟨xs, rfl⟩ := Value.eq_list_of_shape hlist
      obtain ⟨ys, rfl⟩ := Value.eq_list_of_shape hxy.symm.here
      cases hx with
      | list xitems =>
        have again : joined (joined xs ys) xs = joined xs ys := joined_eq_left fun v hv =>
          ⟨v, List.mem_append_left _ hv, (xitems v hv).same_self⟩
        rw [mergeValue_list, mergeValue_list, again]
    · have apart {v : Value} (hv : v.shape = x.shape) : ¬ v.along? [] = some (.list items) := by
        intro h
        cases h
        exact hlist hv.symm
      exact iff_of_false (apart (shape_mergeValue _ _))
        (apart ((shape_mergeValue _ _).trans hxy.here.symm))
  | cons key path ih =>
    by_cases hmap : x.shape = .mapping
    · obtain ⟨a, rfl⟩ := Value.eq_map_of_shape hmap
      obtain ⟨b, rfl⟩ := Value.eq_map_of_shape hxy.symm.here
      cases hx with
      | map ha avalues =>
        cases hy with
        | map hb bvalues =>
          have hab := keyed_overlay ha hb
          rw [mergeValue_map, mergeValue_map, merge_eq ha hb, merge_eq hab ha,
            Value.along?_map_cons, Value.along?_map_cons, under?_overlay hab ha,
            under?_overlay ha hb]
          cases hax : under? key a with
          | none => cases under? key b <;> rfl
          | some x =>
            obtain ⟨d, hd, -, rfl⟩ := Value.exists_of_under? hax
            cases hby : under? key b with
            | none =>
              have self : topped (topped d.2 none) (some d.2) = d.2 := mergeValue_self (avalues d hd)
              change (some (topped (topped d.2 none) (some d.2))).bind _ = _ ↔ _
              rw [self]
              rfl
            | some y =>
              obtain ⟨e, he, -, rfl⟩ := Value.exists_of_under? hby
              exact ih (avalues d hd) (bvalues e he) (hxy.under hax hby)
    · have hmerged : (mergeValue (some x) y).shape ≠ .mapping := by
        rwa [shape_mergeValue, ← hxy.here]
      rw [Value.along?_cons_of_not_map (by rwa [shape_mergeValue]),
        Value.along?_cons_of_not_map hmerged]

end Values

section Chains

variable {m n : List (Value × Value)} {chain front group back : List (List (Value × Value))}

/-- The mappings are proper, and wherever two of them have something it is of one shape. -/
structure Compatible (chain : List (List (Value × Value))) : Prop where
  proper : ∀ m ∈ chain, (Value.map m).Proper
  shapes : chain.Pairwise fun m n => SameShapes (.map m) (.map n)

/-- The mappings of a chain, each merged on top of those before it. -/
def mergeAll (chain : List (List (Value × Value))) : List (Value × Value) :=
  chain.foldl merge []

theorem Compatible.tail (h : Compatible (m :: chain)) : Compatible chain :=
  ⟨fun n hn => h.proper n (List.mem_cons_of_mem m hn), (List.pairwise_cons.1 h.shapes).2⟩

theorem Compatible.keyed (h : Compatible chain) (hm : m ∈ chain) : Keyed m := by
  cases h.proper m hm with
  | map keyed _ => exact keyed

theorem Compatible.append (h : Compatible (front ++ back)) : Compatible front ∧ Compatible back := by
  obtain ⟨hfront, hback, -⟩ := List.pairwise_append.1 h.shapes
  exact ⟨⟨fun m hm => h.proper m (List.mem_append_left back hm), hfront⟩,
    ⟨fun m hm => h.proper m (List.mem_append_right front hm), hback⟩⟩

/-- The first two mappings of a chain can be merged in advance. -/
theorem Compatible.merged (h : Compatible (m :: n :: chain)) : Compatible (merge m n :: chain) := by
  obtain ⟨hm, hrest⟩ := List.pairwise_cons.1 h.shapes
  obtain ⟨hn, hchain⟩ := List.pairwise_cons.1 hrest
  have hproper := List.forall_mem_cons.1 h.proper
  have hproper' := List.forall_mem_cons.1 hproper.2
  have hmn := hm n List.mem_cons_self
  refine ⟨List.forall_mem_cons.2 ⟨?_, hproper'.2⟩, List.pairwise_cons.2 ⟨fun l hl => ?_, hchain⟩⟩
  · rw [← mergeValue_map]
    exact proper_mergeValue hproper.1 hproper'.1 hmn
  · rw [← mergeValue_map]
    exact sameShapes_mergeValue hproper.1 hproper'.1 hmn (hm l (List.mem_cons_of_mem n hl)) (hn l hl)

theorem Compatible.perm {other : List (List (Value × Value))} (h : Compatible chain)
    (hperm : chain.Perm other) : Compatible other :=
  ⟨fun m hm => h.proper m (hperm.mem_iff.2 hm), h.shapes.perm hperm SameShapes.symm⟩

theorem Compatible.cons_nil (h : Compatible chain) : Compatible ([] :: chain) := by
  refine ⟨List.forall_mem_cons.2 ⟨.map .nil (by simp), h.proper⟩,
    List.pairwise_cons.2 ⟨fun m _ path x y hx hy => ?_, h.shapes⟩⟩
  cases path with
  | nil =>
    cases hx
    cases hy
    rfl
  | cons key path => cases hx

theorem Compatible.foldl (h : Compatible (m :: (chain ++ back))) :
    Compatible (chain.foldl merge m :: back) := by
  induction chain generalizing m with
  | nil => exact h
  | cons n rest ih => exact ih h.merged

theorem Compatible.mergeAll (h : Compatible (front ++ back)) : Compatible (mergeAll front :: back) :=
  h.cons_nil.foldl

theorem merge_assoc {l : List (Value × Value)} (h : Compatible [l, m, n]) :
    merge (merge l m) n = merge l (merge m n) := by
  obtain ⟨hl, hm⟩ := List.forall_mem_cons.1 h.proper
  obtain ⟨hm, hn⟩ := List.forall_mem_cons.1 hm
  obtain ⟨hfirst, hrest⟩ := List.pairwise_cons.1 h.shapes
  have hmn := (List.pairwise_cons.1 hrest).1 n List.mem_cons_self
  have hassoc := mergeValue_assoc hl hm (hn n List.mem_cons_self) (hfirst m List.mem_cons_self)
    (hfirst n (by simp)) hmn
  simpa only [mergeValue_map, Value.map.injEq] using hassoc

theorem mergeAll_cons (h : Keyed m) : Policy.mergeAll (m :: chain) = chain.foldl merge m := by
  rw [Policy.mergeAll, List.foldl_cons, nil_merge h]

theorem foldl_merge (h : Compatible (m :: chain)) :
    chain.foldl merge m = merge m (Policy.mergeAll chain) := by
  induction chain generalizing m with
  | nil => simp [Policy.mergeAll, merge]
  | cons n rest ih =>
    have hthree : Compatible [m, n, Policy.mergeAll rest] :=
      (h.perm (@List.perm_append_comm _ [m, n] rest)).mergeAll.perm
        (@List.perm_append_comm _ [Policy.mergeAll rest] [m, n])
    calc (n :: rest).foldl merge m
        = merge (merge m n) (Policy.mergeAll rest) := ih h.merged
      _ = merge m (merge n (Policy.mergeAll rest)) := merge_assoc hthree
      _ = merge m (Policy.mergeAll (n :: rest)) := by
        rw [mergeAll_cons (h.tail.keyed List.mem_cons_self), ih h.tail]

theorem mergeAll_append (h : Compatible (front ++ back)) :
    mergeAll (front ++ back) = merge (mergeAll front) (mergeAll back) := by
  rw [mergeAll, List.foldl_append, ← mergeAll, foldl_merge h.mergeAll]

/-- A group of neighbours can be merged in advance and take their place. -/
theorem mergeAll_group (h : Compatible (front ++ group ++ back)) :
    mergeAll (front ++ mergeAll group :: back) = mergeAll (front ++ group ++ back) := by
  calc mergeAll (front ++ mergeAll group :: back)
      = back.foldl merge (merge (mergeAll front) (mergeAll group)) := by
        rw [mergeAll, List.foldl_append, List.foldl_cons, ← mergeAll]
    _ = mergeAll (front ++ group ++ back) := by
        rw [← mergeAll_append h.append.1]
        exact List.foldl_append.symm

/-- Merging is associative and idempotent, with the empty mapping as its unit; even the order of the
entries is the same. So it makes no difference how a chain is grouped, and a mapping that comes in
again changes nothing if it was the last, and no list otherwise. -/
theorem merging_laws :
    (∀ a b c, Compatible [a, b, c] → merge (merge a b) c = merge a (merge b c)) ∧
      (∀ a, (Value.map a).Proper → merge a a = a ∧ merge [] a = a ∧ merge a [] = a) ∧
      (∀ front group back, Compatible (front ++ group ++ back) →
        mergeAll (front ++ mergeAll group :: back) = mergeAll (front ++ group ++ back)) ∧
      ∀ a b, Compatible [a, b] → merge (merge a b) b = merge a b ∧
        ∀ path items,
          (Value.map (merge (merge a b) a)).along? path = some (.list items) ↔
            (Value.map (merge a b)).along? path = some (.list items) := by
  have self {a : List (Value × Value)} (ha : (Value.map a).Proper) : merge a a = a := by
    simpa only [mergeValue_map, Value.map.injEq] using mergeValue_self ha
  refine ⟨fun a b c => merge_assoc, fun a ha => ⟨self ha, ?_, ?_⟩,
    fun front group back => mergeAll_group, fun a b h => ⟨?_, fun path items => ?_⟩⟩
  · cases ha with
    | map keyed _ => exact nil_merge keyed
  · rw [merge]
  · have hab := (List.pairwise_cons.1 h.shapes).1 b List.mem_cons_self
    have htwice : Compatible [a, b, b] :=
      ⟨fun m hm => h.proper m (by simpa using hm), by simpa using ⟨hab, SameShapes.refl (.map b)⟩⟩
    rw [merge_assoc htwice, self (h.proper b (by simp))]
  · have hab := (List.pairwise_cons.1 h.shapes).1 b List.mem_cons_self
    simpa only [mergeValue_map] using
      lists_mergeValue_again (h.proper a (by simp)) (h.proper b (by simp)) hab path items

end Chains

/-- The mapping that forbids some functions. -/
def denying (names : List String) : List (Value × Value) :=
  [(.text "functions", .map [(.text "forbidden", .texts names)])]

theorem keyed_single (key : String) (v : Value) : Keyed [(.text key, v)] :=
  ⟨by simp [Yaml.isKey], by simp, List.pairwise_singleton _ _⟩

theorem sameShapes_single {key : String} {v w : Value} (h : SameShapes v w) :
    SameShapes (.map [(.text key, v)]) (.map [(.text key, w)]) := by
  intro path x y hx hy
  cases path with
  | nil =>
    cases hx
    cases hy
    rfl
  | cons k path =>
    rw [Value.along?_map_cons, Value.under?_cons] at hx hy
    split at hx
    case isTrue hk =>
      rw [if_pos hk] at hy
      exact h path x y hx hy
    case isFalse => cases hx

theorem compatible_denying (lists : List (List String)) : Compatible (lists.map denying) := by
  constructor
  case proper =>
    intro m hm
    obtain ⟨names, -, rfl⟩ := List.mem_map.1 hm
    refine .map (keyed_single _ _) (List.forall_mem_singleton.2 ?_)
    refine .map (keyed_single _ _) (List.forall_mem_singleton.2 (.list fun v hv => ?_))
    obtain ⟨name, -, rfl⟩ := List.mem_map.1 hv
    exact .text name
  case shapes =>
    refine List.pairwise_map.2 (List.pairwise_of_forall fun names names' => ?_)
    refine sameShapes_single (sameShapes_single fun path x y hx hy => ?_)
    cases path with
    | nil =>
      cases hx
      cases hy
      rfl
    | cons key path => cases hx

/-- Three lists give the same list however they are grouped, and a list that comes in again gives
nothing new. -/
theorem three_lists_merged :
    let first := denying ["exec", "eval", "exec"]
    let second := denying ["eval", "dl"]
    let third := denying ["mail", "dl", "exec"]
    Compatible [first, second, third] ∧
      merge (merge first second) third = merge first (merge second third) ∧
      merge first (merge second third) = denying ["exec", "eval", "exec", "dl", "mail"] ∧
      mergeAll [first, mergeAll [second, third]] = mergeAll [first, second, third] ∧
      merge first first = first ∧ merge (merge first second) second = merge first second := by
  intro first second third
  obtain ⟨assoc, self, group, again⟩ := merging_laws
  have all : Compatible [first, second, third] := compatible_denying [_, _, _]
  refine ⟨all, assoc _ _ _ all, ?_, group [first] [second, third] [] all,
    (self first (all.proper first (by simp))).1, (again _ _ (compatible_denying [_, _])).1⟩
  rfl

end Policy

end PluginAudit
