import PluginAudit.Policy.Inherit
import PluginAudit.Proofs.Built
import Mathlib

namespace PluginAudit

namespace Value

/-- The value that nested mappings have at a path. -/
def at? (v : Value) : List String → Option Value
  | [] => some v
  | key :: path => (v.get? key).bind fun w => w.at? path

/-- Whatever stands at a path satisfies `P`, and on the way to it there are only mappings. -/
def ShapedAt (P : Value → Prop) : List String → Value → Prop
  | [], v => P v
  | key :: path, v =>
    ∃ entries, v = .map entries ∧ ∀ w, (.text key, w) ∈ entries → ShapedAt P path w

/-- Something stands at a path, and it satisfies `Q`. -/
def HasAt (Q : Value → Prop) (path : List String) (v : Value) : Prop :=
  ∃ w, v.at? path = some w ∧ Q w

theorem hasAt_cons {Q : Value → Prop} {key : String} {path : List String} {v : Value} :
    HasAt Q (key :: path) v ↔
      ∃ entries w, v = .map entries ∧ lookup key entries = some w ∧ HasAt Q path w := by
  constructor
  · rintro ⟨u, hu, hQ⟩
    obtain ⟨w, hw, hat⟩ := Option.bind_eq_some_iff.1 hu
    cases v with
    | map entries => exact ⟨entries, w, rfl, hw, u, hat, hQ⟩
    | _ => cases hw
  · rintro ⟨entries, w, rfl, hw, u, hat, hQ⟩
    exact ⟨u, Option.bind_eq_some_iff.2 ⟨w, hw, hat⟩, hQ⟩

def IsList (v : Value) : Prop :=
  ∃ items, v = .list items

/-- The value lists `x`: as an item, or alone, in place of a list. Blank texts among the items are
passed over. -/
inductive Lists : Value → Value → Prop
  | alone (s : String) : Lists (.text s) (.text s)
  | among {items : List Value} {x : Value} :
    x ∈ items → (∀ s, x = .text s → Text.strip s ≠ "") → Lists (.list items) x

/-- The value `y` is `x`, or stands for it over values of which each equals the next. -/
def StandsFor (y x : Value) : Prop :=
  Relation.ReflTransGen (fun x y => y.same x = true) x y

theorem StandsFor.eq_text {y : Value} {s : String} (h : y.StandsFor (.text s)) : y = .text s := by
  induction h with
  | refl => rfl
  | tail _ hstep ih =>
    rw [ih] at hstep
    exact (same_text _ _).1 hstep

end Value

namespace Policy

/-- The step of `merge`: one entry on top of a mapping. -/
def mergeEntry (base : List (Value × Value)) (key value : Value) : List (Value × Value) :=
  Value.insert base key (mergeValue ((base.find? fun e => e.1.same key).map Prod.snd) value)

theorem merge_cons (base : List (Value × Value)) (key value : Value) (rest : List (Value × Value)) :
    merge base ((key, value) :: rest) = merge (mergeEntry base key value) rest := by
  rw [merge, mergeEntry]

theorem mergeValue_none (v : Value) : mergeValue none v = v := by
  cases v <;> simp only [mergeValue]

theorem mergeEntry_text (base : List (Value × Value)) (key : String) (v : Value) :
    mergeEntry base (.text key) v =
      Value.insert base (.text key) (mergeValue (Value.lookup key base) v) := by
  rw [mergeEntry, Value.find?_same_text]

/-- `Q` outlasts merging among values of shape `P`: the result has it if one of the two has. -/
structure Lasting (P Q : Value → Prop) : Prop where
  shape {v w : Value} : P v → P w → P (mergeValue (some v) w)
  ofBase {v w : Value} : P v → P w → Q v → Q (mergeValue (some v) w)
  ofOwn {v w : Value} : P v → P w → Q w → Q (mergeValue (some v) w)

section Keys

variable {P Q : Value → Prop} {key : String} {base own : List (Value × Value)}

/-- Every value that stands under a key satisfies `P`, be it shadowed or not. -/
def EachUnder (P : Value → Prop) (key : String) (entries : List (Value × Value)) : Prop :=
  ∀ w, (.text key, w) ∈ entries → P w

/-- The value that is found under a key satisfies `Q`. -/
def FoundUnder (Q : Value → Prop) (key : String) (entries : List (Value × Value)) : Prop :=
  ∃ w, Value.lookup key entries = some w ∧ Q w

theorem EachUnder.head {e : Value × Value} (h : EachUnder P key (e :: own))
    (hkey : e.1 = .text key) : P e.2 :=
  h e.2 (hkey ▸ List.mem_cons_self)

theorem EachUnder.tail {e : Value × Value} (h : EachUnder P key (e :: own)) :
    EachUnder P key own :=
  fun w hw => h w (List.mem_cons_of_mem e hw)

theorem EachUnder.of_lookup {w : Value} (h : EachUnder P key base)
    (hw : Value.lookup key base = some w) : P w :=
  h w (Value.mem_of_lookup hw)

theorem Lasting.shape_entry (h : Lasting P Q) {k v : Value} (hbase : EachUnder P key base)
    (hown : k = .text key → P v) : EachUnder P key (mergeEntry base k v) := by
  intro w hw
  obtain hold | ⟨rfl, rfl⟩ := Value.mem_insert hw
  · exact hbase w hold
  · rw [Value.find?_same_text]
    cases hcur : Value.lookup key base with
    | none => rw [mergeValue_none]; exact hown rfl
    | some u => exact h.shape (hbase.of_lookup hcur) (hown rfl)

theorem Lasting.kept_entry (h : Lasting P Q) {k v : Value} (hbase : EachUnder P key base)
    (hown : k = .text key → P v) (hQ : FoundUnder Q key base) :
    FoundUnder Q key (mergeEntry base k v) := by
  obtain ⟨w, hw, hQw⟩ := hQ
  by_cases hk : k = .text key
  · subst hk
    rw [FoundUnder, mergeEntry_text, Value.lookup_insert_text, hw]
    exact ⟨_, rfl, h.ofBase (hbase.of_lookup hw) (hown rfl) hQw⟩
  · rw [FoundUnder, mergeEntry, Value.lookup_insert_of_ne hk]
    exact ⟨w, hw, hQw⟩

theorem Lasting.new_entry (h : Lasting P Q) {v : Value} (hbase : EachUnder P key base)
    (hP : P v) (hQ : Q v) : FoundUnder Q key (mergeEntry base (.text key) v) := by
  rw [FoundUnder, mergeEntry_text, Value.lookup_insert_text]
  refine ⟨_, rfl, ?_⟩
  cases hcur : Value.lookup key base with
  | none => rw [mergeValue_none]; exact hQ
  | some u => exact h.ofOwn (hbase.of_lookup hcur) hP hQ

theorem Lasting.shape_merge (h : Lasting P Q) (hbase : EachUnder P key base)
    (hown : EachUnder P key own) : EachUnder P key (merge base own) := by
  induction own generalizing base with
  | nil => simpa only [merge] using hbase
  | cons e rest ih =>
    rw [merge_cons]
    exact ih (h.shape_entry hbase hown.head) hown.tail

theorem Lasting.kept_merge (h : Lasting P Q) (hbase : EachUnder P key base)
    (hown : EachUnder P key own) (hQ : FoundUnder Q key base) :
    FoundUnder Q key (merge base own) := by
  induction own generalizing base with
  | nil => simpa only [merge] using hQ
  | cons e rest ih =>
    rw [merge_cons]
    exact ih (h.shape_entry hbase hown.head) hown.tail (h.kept_entry hbase hown.head hQ)

/-- The entry that has `Q` may come late: those before it keep the shape, those after it keep
`Q`. -/
theorem Lasting.new_merge (h : Lasting P Q) (hbase : EachUnder P key base)
    (hown : EachUnder P key own) {v : Value} (hv : (.text key, v) ∈ own) (hQ : Q v) :
    FoundUnder Q key (merge base own) := by
  induction own generalizing base with
  | nil => cases hv
  | cons e rest ih =>
    have hshape := h.shape_entry hbase hown.head
    rw [merge_cons]
    obtain rfl | hrest := List.mem_cons.1 hv
    · exact h.kept_merge hshape hown.tail (h.new_entry hbase (hown.head rfl) hQ)
    · exact ih hshape hown.tail hrest

end Keys

/-- What outlasts merging does so at the end of every path. -/
theorem Lasting.at {P Q : Value → Prop} (h : Lasting P Q) (path : List String) :
    Lasting (Value.ShapedAt P path) (Value.HasAt Q path) := by
  induction path with
  | nil =>
    have here {v : Value} : Value.HasAt Q [] v ↔ Q v := by simp [Value.HasAt, Value.at?]
    exact ⟨h.shape, fun hv hw hQ => here.2 (h.ofBase hv hw (here.1 hQ)),
      fun hv hw hQ => here.2 (h.ofOwn hv hw (here.1 hQ))⟩
  | cons key path ih =>
    constructor
    case shape =>
      rintro - - ⟨base, rfl, hbase⟩ ⟨own, rfl, hown⟩
      exact ⟨merge base own, by rw [mergeValue], ih.shape_merge hbase hown⟩
    case ofBase =>
      rintro - - ⟨base, rfl, hbase⟩ ⟨own, rfl, hown⟩ hQ
      obtain ⟨entries, w, heq, hw, hQw⟩ := Value.hasAt_cons.1 hQ
      cases heq
      obtain ⟨u, hu, hQu⟩ := ih.kept_merge hbase hown ⟨w, hw, hQw⟩
      exact Value.hasAt_cons.2 ⟨merge base own, u, by rw [mergeValue], hu, hQu⟩
    case ofOwn =>
      rintro - - ⟨base, rfl, hbase⟩ ⟨own, rfl, hown⟩ hQ
      obtain ⟨entries, w, heq, hw, hQw⟩ := Value.hasAt_cons.1 hQ
      cases heq
      obtain ⟨u, hu, hQu⟩ := ih.new_merge hbase hown (Value.mem_of_lookup hw) hQw
      exact Value.hasAt_cons.2 ⟨merge base own, u, by rw [mergeValue], hu, hQu⟩

/-- The mapping `m` is one that `data` names as inherited. -/
def Inherits (t : Sources) (data m : List (Value × Value)) : Prop :=
  ∃ refs ref, textList (Value.lookup "inherit" data) = .ok refs ∧ ref ∈ refs ∧ readRef t ref = .ok m

/-- The mapping `m` is inherited from `data`, over any number of steps. -/
def Ancestor (t : Sources) : List (Value × Value) → List (Value × Value) → Prop :=
  Relation.TransGen (Inherits t)

/-- A mapping itself, or one of its ancestors. -/
def Family (t : Sources) : List (Value × Value) → List (Value × Value) → Prop :=
  Relation.ReflTransGen (Inherits t)

/-- A successful resolution merges the resolved parents one by one, and the mapping last. -/
theorem resolve_cases {t : Sources} {fuel : Nat} {seen : List Value}
    {data r : List (Value × Value)} (h : resolve t fuel seen data = .ok r) :
    ∃ less seen' refs merged, fuel = less + 1 ∧
      textList (Value.lookup "inherit" data) = .ok refs ∧
      refs.foldlM (fun merged ref => do
        return merge merged (← resolve t less seen' (← readRef t ref))) [] = .ok merged ∧
      r = merge merged data := by
  cases fuel with
  | zero =>
    obtain ⟨name, -, herr⟩ := bind_eq_ok h
    cases herr
  | succ less =>
    obtain ⟨name, -, h⟩ := bind_eq_ok h
    split at h
    case isTrue => cases h
    case isFalse =>
      obtain ⟨refs, hrefs, h⟩ := bind_eq_ok h
      obtain ⟨merged, hmerged, h⟩ := bind_eq_ok h
      cases h
      exact ⟨less, name :: seen, refs, merged, rfl, hrefs, hmerged, rfl⟩

section Runs

variable {P Q : Value → Prop} {t : Sources}

theorem Lasting.shape_root (h : Lasting P Q) {base own : List (Value × Value)}
    (hbase : P (.map base)) (hown : P (.map own)) : P (.map (merge base own)) := by
  have hmerged := h.shape hbase hown
  rwa [mergeValue] at hmerged

theorem Lasting.kept_root (h : Lasting P Q) {base own : List (Value × Value)}
    (hbase : P (.map base)) (hown : P (.map own)) (hQ : Q (.map base) ∨ Q (.map own)) :
    Q (.map (merge base own)) := by
  have hmerged : Q (mergeValue (some (.map base)) (.map own)) :=
    hQ.elim (h.ofBase hbase hown) (h.ofOwn hbase hown)
  rwa [mergeValue] at hmerged

/-- The result of resolving `data` has the shape, and has what any of the family has. -/
def Gathers (P Q : Value → Prop) (t : Sources) (data r : List (Value × Value)) : Prop :=
  P (.map r) ∧ ∀ d, Family t data d → Q (.map d) → Q (.map r)

/-- Merging parents one by one keeps what stood before and adds what each of them gathers. -/
theorem Lasting.gathers_parents (h : Lasting P Q)
    {resolve' : List (Value × Value) → Except Fault (List (Value × Value))}
    {refs : List String} {start merged : List (Value × Value)}
    (hresolve : ∀ ref ∈ refs, ∀ m r, readRef t ref = .ok m → resolve' m = .ok r →
      Gathers P Q t m r)
    (hstart : P (.map start))
    (hfold : refs.foldlM (fun merged ref => do
      return merge merged (← resolve' (← readRef t ref))) start = .ok merged) :
    P (.map merged) ∧ (Q (.map start) → Q (.map merged)) ∧
      ∀ ref ∈ refs, ∀ m, readRef t ref = .ok m → ∀ d, Family t m d → Q (.map d) →
        Q (.map merged) := by
  induction refs generalizing start with
  | nil =>
    cases hfold
    exact ⟨hstart, id, by simp⟩
  | cons ref rest ih =>
    rw [List.foldlM_cons] at hfold
    obtain ⟨next, hnext, hfold⟩ := bind_eq_ok hfold
    obtain ⟨m, hm, hnext⟩ := bind_eq_ok hnext
    obtain ⟨r, hr, hnext⟩ := bind_eq_ok hnext
    cases hnext
    obtain ⟨hshape, hgather⟩ := hresolve ref List.mem_cons_self m r hm hr
    obtain ⟨hP, hkeep, hrest⟩ := ih
      (fun ref' href' => hresolve ref' (List.mem_cons_of_mem _ href'))
      (h.shape_root hstart hshape) hfold
    refine ⟨hP, fun hQ => hkeep (h.kept_root hstart hshape (.inl hQ)), ?_⟩
    intro ref' href' m' hm' d hd hQ
    obtain rfl | href' := List.mem_cons.1 href'
    · cases hm.symm.trans hm'
      exact hkeep (h.kept_root hstart hshape (.inr (hgather d hd hQ)))
    · exact hrest ref' href' m' hm' d hd hQ

theorem Lasting.gathers_resolve (h : Lasting P Q) (hempty : P (.map [])) {fuel : Nat}
    {seen : List Value} {data r : List (Value × Value)} (hr : resolve t fuel seen data = .ok r)
    (shaped : ∀ d, Family t data d → P (.map d)) : Gathers P Q t data r := by
  induction fuel generalizing seen data r with
  | zero =>
    obtain ⟨less, -, -, -, hfuel, -⟩ := resolve_cases hr
    cases hfuel
  | succ fuel ih =>
    obtain ⟨less, seen', refs, merged, hfuel, hrefs, hfold, rfl⟩ := resolve_cases hr
    cases hfuel
    have hparent {ref : String} (href : ref ∈ refs) {m : List (Value × Value)}
        (hm : readRef t ref = .ok m) : Inherits t data m := ⟨refs, ref, hrefs, href, hm⟩
    obtain ⟨hmerged, -, hgather⟩ := h.gathers_parents
      (fun ref href m r hm hr => ih hr fun d hd => shaped d (.head (hparent href hm) hd))
      hempty hfold
    have hdata : P (.map data) := shaped data .refl
    refine ⟨h.shape_root hmerged hdata, fun d hd hQ => ?_⟩
    -- The mapping itself is merged last; an ancestor comes in with the parent it is reached by.
    obtain rfl | ⟨m, ⟨refs', ref, hrefs', href, hm⟩, hd⟩ := hd.cases_head
    · exact h.kept_root hmerged hdata (.inr hQ)
    · cases hrefs.symm.trans hrefs'
      exact h.kept_root hmerged hdata (.inl (hgather ref href m hm d hd hQ))

end Runs

/-- Among lists, each item outlasts merging: itself, or as an equal one that stood there before. -/
theorem lasting_lists (x : Value) :
    Lasting Value.IsList fun v => ∃ y : Value, y.StandsFor x ∧ v.Lists y := by
  constructor
  case shape =>
    rintro - - ⟨base, rfl⟩ ⟨own, rfl⟩
    exact ⟨_, by rw [mergeValue]⟩
  case ofBase =>
    rintro - - ⟨base, rfl⟩ ⟨own, rfl⟩ ⟨y, hy, hbase⟩
    cases hbase with
    | among hmem hblank =>
      rw [mergeValue]
      exact ⟨y, hy, .among (List.mem_append_left _ hmem) hblank⟩
  case ofOwn =>
    rintro - - ⟨base, rfl⟩ ⟨own, rfl⟩ ⟨y, hy, hown⟩
    cases hown with
    | among hmem hblank =>
      rw [mergeValue]
      by_cases hdup : base.any fun w => w.same y
      · obtain ⟨z, hz, hsame⟩ := List.any_eq_true.1 hdup
        refine ⟨z, hy.tail hsame, .among (List.mem_append_left _ hz) ?_⟩
        rintro s rfl
        exact hblank s ((Value.text_same _ _).1 hsame)
      · exact ⟨y, hy, .among
          (List.mem_append_right _ (List.mem_filter.2 ⟨hmem, by simpa using hdup⟩)) hblank⟩

/-- Where every value lists `x`, be it alone, so does what they are merged to. -/
theorem lasting_alike (x : Value) : Lasting (·.Lists x) (·.Lists x) := by
  have merged {v w : Value} (hv : v.Lists x) (hw : w.Lists x) :
      (mergeValue (some v) w).Lists x := by
    cases hw with
    | alone s => simpa only [mergeValue] using Value.Lists.alone s
    | among hmem hblank =>
      cases hv with
      | alone s => simpa only [mergeValue] using Value.Lists.among hmem hblank
      | among hbase =>
        rw [mergeValue]
        exact .among (List.mem_append_left _ hbase) hblank
  exact ⟨merged, fun hv hw _ => merged hv hw, fun hv hw _ => merged hv hw⟩

theorem textList_of_lists {v : Value} {s : String} (h : v.Lists (.text s)) :
    ∃ names, textList (some v) = .ok names ∧ s ∈ names := by
  cases h with
  | alone => exact ⟨[s], rfl, List.mem_singleton_self s⟩
  | among hmem hblank =>
    refine ⟨_, rfl, List.mem_filterMap.2 ⟨.text s, hmem, ?_⟩⟩
    have hs := hblank s rfl
    simp [Value.asText, hs]

theorem listedIn_of_at? {part key : String} {data : List (Value × Value)} {v : Value}
    (h : (Value.map data).at? [part, key] = some v) :
    listedIn part data key = lowerSet (some v) := by
  obtain ⟨entries, w, hdata, hpart, hkey⟩ := Value.hasAt_cons.1 ⟨v, h, rfl⟩
  cases hdata
  obtain ⟨entries, u, rfl, hu, hat⟩ := Value.hasAt_cons.1 hkey
  obtain ⟨w, hw, rfl⟩ := hat
  cases hw
  have truthy : (Value.map entries).isTruthy = true := by
    cases entries with
    | nil => cases hu
    | cons e rest => rfl
  simp [listedIn, section?, hpart, truthy, hu, bind, Except.bind]

/-- The places of the lists that deny something. -/
def denyPaths : List (List String) :=
  forbiddenKeys.map (fun key => ["functions", key]) ++
    [["namespaces"], ["packages"], ["wrappers"], ["magic_methods"]]

/-- What an ancestor lists stays listed if the policy and its ancestors have only lists at that
place, or if all that have anything there list it. -/
theorem resolve_keeps_listed {t : Sources} {fuel : Nat} {seen : List Value}
    {data r m : List (Value × Value)} {path : List String} {x : Value}
    (resolved : resolve t fuel seen data = .ok r) (deny : path ∈ denyPaths)
    (inherited : Ancestor t data m) (listed : Value.HasAt (·.Lists x) path (.map m))
    (family : (∀ d, Family t data d → Value.ShapedAt Value.IsList path (.map d)) ∨
      ∀ d, Family t data d → Value.ShapedAt (·.Lists x) path (.map d)) :
    (∃ y : Value, y.StandsFor x ∧ Value.HasAt (·.Lists y) path (.map r)) ∧
      ∀ s, x = .text s →
        (∃ names, textList ((Value.map r).at? path) = .ok names ∧ s ∈ names) ∧
        ∀ key ∈ forbiddenKeys, path = ["functions", key] → ∀ p, build r = .ok p →
          ¬ Lifts r (Text.lower (Text.strip s)) →
            Text.lower (Text.strip s) ∈ p.forbiddenFunctions := by
  have empty (P : Value → Prop) : Value.ShapedAt P path (.map []) := by
    cases path with
    | nil => simp [denyPaths] at deny
    | cons key path => exact ⟨[], rfl, by simp⟩
  have stays : ∃ y : Value, y.StandsFor x ∧ Value.HasAt (·.Lists y) path (.map r) := by
    obtain lists | alike := family
    · obtain ⟨w, hw, hlists⟩ := listed
      obtain ⟨-, gathers⟩ := ((lasting_lists x).at path).gathers_resolve (empty _) resolved lists
      obtain ⟨u, hu, y, hy, hlisted⟩ :=
        gathers m inherited.to_reflTransGen ⟨w, hw, x, .refl, hlists⟩
      exact ⟨y, hy, u, hu, hlisted⟩
    · obtain ⟨-, gathers⟩ := ((lasting_alike x).at path).gathers_resolve (empty _) resolved alike
      exact ⟨x, .refl, gathers m inherited.to_reflTransGen listed⟩
  refine ⟨stays, ?_⟩
  rintro s rfl
  obtain ⟨y, hy, w, hw, hlisted⟩ := stays
  cases hy.eq_text
  obtain ⟨names, hnames, hs⟩ := textList_of_lists hlisted
  refine ⟨⟨names, by rw [hw]; exact hnames, hs⟩, ?_⟩
  rintro key hkey rfl p hp hfree
  have hlisted : Lists "functions" r key (Text.lower (Text.strip s)) := by
    refine ⟨_, by rw [listedIn_of_at? hw, lowerSet, hnames]; rfl, ?_⟩
    exact Text.mem_distinct.2 (List.mem_map_of_mem hs)
  exact (mem_forbiddenFunctions hp _).2 ⟨⟨key, hkey, hlisted⟩, hfree⟩

/-- The entries of the baseline. -/
def baseline : List (Value × Value) :=
  match defaultPreset with
  | .map entries => entries
  | _ => []

/-- A policy on top of the baseline. -/
def onBaseline (name : String) (own : List (Value × Value)) : List (Value × Value) :=
  (.text "name", .text name) :: (.text "inherit", .texts ["preset:default"]) :: own

section Baseline

variable {t : Sources} {name : String} {own : List (Value × Value)}

theorem refs_onBaseline :
    textList (Value.lookup "inherit" (onBaseline name own)) = .ok ["preset:default"] := by
  have hname : Text.strip "preset:default" ≠ "" := by cbv
  simp [onBaseline, Value.lookup, textList, Value.texts, textList.ofItems, Value.asText, hname]

theorem inherits_onBaseline {m : List (Value × Value)} :
    Inherits t (onBaseline name own) m ↔ m = baseline := by
  constructor
  · rintro ⟨refs, ref, hrefs, href, hm⟩
    cases refs_onBaseline.symm.trans hrefs
    cases List.mem_singleton.1 href
    cases hm
    rfl
  · rintro rfl
    exact ⟨_, _, refs_onBaseline, List.mem_singleton_self _, rfl⟩

theorem not_inherits_baseline {m : List (Value × Value)} : ¬ Inherits t baseline m := by
  rintro ⟨refs, ref, hrefs, href, -⟩
  cases hrefs
  cases href

theorem family_onBaseline {d : List (Value × Value)} (h : Family t (onBaseline name own) d) :
    d = onBaseline name own ∨ d = baseline := by
  obtain rfl | ⟨m, hm, hd⟩ := h.cases_head
  · exact .inl rfl
  · cases inherits_onBaseline.1 hm
    obtain rfl | ⟨_, hm, -⟩ := hd.cases_head
    · exact .inr rfl
    · exact absurd hm not_inherits_baseline

theorem resolve_baseline (fuel : Nat) {seen : List Value}
    (h : seen.any (fun a => isSameName a (.text "default")) = false) :
    resolve t (fuel + 1) seen baseline = .ok (merge [] baseline) := by
  have hname : nameOf baseline = .ok (.text "default") := rfl
  have hrefs : textList (Value.lookup "inherit" baseline) = .ok [] := rfl
  simp [resolve, hname, hrefs, h, bind, Except.bind, pure, Except.pure]

theorem resolve_onBaseline (fuel : Nat) (h : name ≠ "default") :
    resolve t (fuel + 2) [] (onBaseline name own) =
      .ok (merge (merge [] (merge [] baseline)) (onBaseline name own)) := by
  have hname : nameOf (onBaseline name own) = .ok (.text name) := rfl
  have hread : readRef t "preset:default" = .ok baseline := rfl
  have hparent : resolve t (fuel + 1) [.text name] baseline = .ok (merge [] baseline) :=
    resolve_baseline fuel (by simpa [isSameName, Value.same] using h)
  rw [resolve]
  simp [hname, refs_onBaseline, hread, hparent, bind, Except.bind, pure, Except.pure]

theorem lists_texts {s : String} {names : List String} (hs : s ∈ names)
    (hblank : Text.strip s ≠ "") : (Value.texts names).Lists (.text s) := by
  refine .among (List.mem_map_of_mem hs) ?_
  rintro s' ⟨⟩
  exact hblank

end Baseline

/-- A list of its own under `functions` leaves the forbidden functions of the baseline in force. -/
theorem onBaseline_keeps_exec :
    let t : Sources := (⟨.dir [], Path.ofText "/"⟩ : FileTree)
    let child := onBaseline "child"
      [(.text "functions", .map [(.text "forbidden", .texts ["mail"])])]
    ∃ r names, resolveAll t child = .ok r ∧
      textList ((Value.map r).at? ["functions", "forbidden"]) = .ok names ∧ "exec" ∈ names := by
  intro t child
  have resolved : resolveAll t child = _ := resolve_onBaseline _ (by decide)
  have listed : Value.HasAt (·.Lists (.text "exec")) ["functions", "forbidden"]
      (.map baseline) := ⟨.texts executionFunctions, rfl, lists_texts (by decide) (by cbv)⟩
  have lists : ∀ d, Family t child d →
      Value.ShapedAt Value.IsList ["functions", "forbidden"] (.map d) := by
    intro d hd
    obtain rfl | rfl := family_onBaseline hd
    · refine ⟨_, rfl, ?_⟩
      simp [onBaseline, Value.ShapedAt, Value.IsList, Value.texts]
    · refine ⟨_, rfl, ?_⟩
      simp [baseline, defaultPreset, Value.object, Value.ShapedAt, Value.IsList, Value.texts]
  obtain ⟨-, kept⟩ := resolve_keeps_listed resolved (by decide)
    (.single (inherits_onBaseline.2 rfl)) listed (.inl lists)
  obtain ⟨⟨names, hnames, hs⟩, -⟩ := kept "exec" rfl
  exact ⟨_, names, resolved, hnames, hs⟩

/-- A text in place of a list replaces what is inherited. -/
theorem text_replaces_inherited_list :
    let t : Sources := (⟨.dir [], Path.ofText "/"⟩ : FileTree)
    let child := onBaseline "child" [(.text "wrappers", .text "ftp://")]
    ∃ r, resolveAll t child = .ok r ∧ ["wrappers"] ∈ denyPaths ∧ Ancestor t child baseline ∧
      (∀ d, Family t child d →
        Value.ShapedAt (fun v => v.IsList ∨ ∃ s, v = .text s) ["wrappers"] (.map d)) ∧
      (∃ names, textList ((Value.map baseline).at? ["wrappers"]) = .ok names ∧ "php://" ∈ names) ∧
      ∃ names, textList ((Value.map r).at? ["wrappers"]) = .ok names ∧ "php://" ∉ names := by
  intro t child
  refine ⟨_, resolve_onBaseline _ (by decide), by decide, .single (inherits_onBaseline.2 rfl),
    ?_, ?_, ["ftp://"], ?_, by decide⟩
  · intro d hd
    obtain rfl | rfl := family_onBaseline hd
    · refine ⟨_, rfl, ?_⟩
      simp [onBaseline, Value.ShapedAt]
    · refine ⟨_, rfl, ?_⟩
      simp [baseline, defaultPreset, Value.object, Value.ShapedAt, Value.IsList, Value.texts]
  · exact textList_of_lists (lists_texts (by decide) (by cbv))
  · simp [onBaseline, Value.at?, Value.get?, merge_cons, merge, mergeEntry_text,
      Value.lookup_insert_text, mergeValue, textList]

end Policy

end PluginAudit
