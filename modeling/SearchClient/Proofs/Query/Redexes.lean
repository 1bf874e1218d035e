import Mathlib.Logic.Relation
import SearchClient.Proofs.Query.NormalForm
import SearchClient.Proofs.Query.Reading.Tree
import SearchClient.Proofs.Search.Parts

/-!
# Redexes on the wire

What reduction removes from a query can be told in a document, too: a bool query
without a clause, or with one clause and nothing else; alternatives of which
there are fewer than two; and a score query that leaves the score alone.  The
document of a normal query holds nothing of the kind, at no depth, unless
someone has put it into the body of a raw query.
-/

namespace SearchClient

open Json (Object objectUnder present)
open Relation (ReflTransGen)

/-! ## Documents -/

namespace Json

def items (o : Object) (name : String) : List Json :=
  match o.get? name with
  | some (.array ds) => ds
  | _ => []

theorem items_present {parts : List (String × Option Json)} {name : String} {xs : List Json}
    (hdistinct : (Entries.keys parts).Nodup)
    (h : Entries.get? parts name = some (listPart xs)) : items (present parts) name = xs := by
  rw [items, get?_present hdistinct, h]
  cases xs <;> rfl

theorem objectUnder_inj {name name' : String} {b b' : Object} :
    Json.object (objectUnder name b) = .object (objectUnder name' b') ↔ name = name' ∧ b = b' := by
  simp [objectUnder, field]

/-- A document that reduction would not have left, whatever stands inside it. -/
inductive Redex : Json → Prop where
  | noClause {b : Object} (hfilter : items b "filter" = []) (hshould : items b "should" = [])
      (hmust : items b "must" = []) (hnot : items b "must_not" = []) :
      Redex (.object (objectUnder "bool" b))
  | lone {b : Object} (hfilter : items b "filter" = []) (hnot : items b "must_not" = [])
      (hminimum : b.get? "minimum_should_match" = none) (hboost : b.get? "boost" = none)
      (h : (items b "should").length = 1 ∧ items b "must" = [] ∨
        items b "should" = [] ∧ (items b "must").length = 1) :
      Redex (.object (objectUnder "bool" b))
  | fewAlternatives {b : Object} (h : (items b "queries").length < 2) :
      Redex (.object (objectUnder "dis_max" b))
  | unscored {b : Object} (hfunctions : items b "functions" = [])
      (hscore : b.get? "min_score" = none) : Redex (.object (objectUnder "function_score" b))

inductive Inner : Json → Json → Prop where
  | clause {b : Object} {d : Json} (clause : Clause) (h : d ∈ items b clause.text) :
      Inner (.object (objectUnder "bool" b)) d
  | alternative {b : Object} {d : Json} (h : d ∈ items b "queries") :
      Inner (.object (objectUnder "dis_max" b)) d
  | scored {b : Object} {d : Json} (h : b.get? "query" = some d) :
      Inner (.object (objectUnder "function_score" b)) d
  | function {b g : Object} {d : Json} (hg : .object g ∈ items b "functions")
      (h : g.get? "filter" = some d) : Inner (.object (objectUnder "function_score" b)) d
  | joined {name : String} {b : Object} {d : Json}
      (hname : name ∈ ["nested", "has_child", "has_parent"]) (h : b.get? "query" = some d) :
      Inner (.object (objectUnder name b)) d

section

variable {name : String} {b : Object} {d : Json}

theorem Redex.cases_name (h : Redex (.object (objectUnder name b))) :
    name = "bool" ∧
      (items b "filter" = [] ∧ items b "should" = [] ∧ items b "must" = [] ∧
          items b "must_not" = [] ∨
        items b "filter" = [] ∧ items b "must_not" = [] ∧ b.get? "minimum_should_match" = none ∧
          b.get? "boost" = none ∧ ((items b "should").length = 1 ∧ items b "must" = [] ∨
            items b "should" = [] ∧ (items b "must").length = 1)) ∨
      name = "dis_max" ∧ (items b "queries").length < 2 ∨
      name = "function_score" ∧ items b "functions" = [] ∧ b.get? "min_score" = none := by
  generalize he : Json.object (objectUnder name b) = e at h
  cases h with
  | noClause hfilter hshould hmust hnot =>
      obtain ⟨rfl, rfl⟩ := objectUnder_inj.mp he
      exact .inl ⟨rfl, .inl ⟨hfilter, hshould, hmust, hnot⟩⟩
  | lone hfilter hnot hminimum hboost hone =>
      obtain ⟨rfl, rfl⟩ := objectUnder_inj.mp he
      exact .inl ⟨rfl, .inr ⟨hfilter, hnot, hminimum, hboost, hone⟩⟩
  | fewAlternatives hfew =>
      obtain ⟨rfl, rfl⟩ := objectUnder_inj.mp he
      exact .inr (.inl ⟨rfl, hfew⟩)
  | unscored hfunctions hscore =>
      obtain ⟨rfl, rfl⟩ := objectUnder_inj.mp he
      exact .inr (.inr ⟨rfl, hfunctions, hscore⟩)

theorem Inner.cases_name (h : Inner (.object (objectUnder name b)) d) :
    name = "bool" ∧ (∃ clause : Clause, d ∈ items b clause.text) ∨
      name = "dis_max" ∧ d ∈ items b "queries" ∨
      name = "function_score" ∧ (b.get? "query" = some d ∨
        ∃ g : Object, .object g ∈ items b "functions" ∧ g.get? "filter" = some d) ∨
      name ∈ ["nested", "has_child", "has_parent"] ∧ b.get? "query" = some d := by
  generalize he : Json.object (objectUnder name b) = e at h
  cases h with
  | clause clause hd =>
      obtain ⟨rfl, rfl⟩ := objectUnder_inj.mp he
      exact .inl ⟨rfl, clause, hd⟩
  | alternative hd =>
      obtain ⟨rfl, rfl⟩ := objectUnder_inj.mp he
      exact .inr (.inl ⟨rfl, hd⟩)
  | scored hd =>
      obtain ⟨rfl, rfl⟩ := objectUnder_inj.mp he
      exact .inr (.inr (.inl ⟨rfl, .inl hd⟩))
  | function hg hd =>
      obtain ⟨rfl, rfl⟩ := objectUnder_inj.mp he
      exact .inr (.inr (.inl ⟨rfl, .inr ⟨_, hg, hd⟩⟩))
  | joined hname hd =>
      obtain ⟨rfl, rfl⟩ := objectUnder_inj.mp he
      exact .inr (.inr (.inr ⟨hname, hd⟩))

end

/-- A document and all that stands in it as a query, at any depth. -/
def Part : Json → Json → Prop := ReflTransGen Inner

end Json

open Json (Inner Part Redex items)

namespace Query

variable {φ : Features}

theorem keys_parts_nodup (q : Query) : (Entries.keys (q.parts φ)).Nodup := by
  cases q with
  | leaf l => exact List.nodup_nil
  | joining j q => cases j <;> simp [parts, Joining.parts, boostPart]
  | node l q => exact List.nodup_nil
  | _ => simp [parts, ScoreOptions.parts, boostPart]

theorem items_bool (l : Option Label) (c : BoolClauses Query) :
    items ((bool l c).body φ) "filter" = c.filter.map (document φ) ∧
      items ((bool l c).body φ) "should" = c.should.map (document φ) ∧
      items ((bool l c).body φ) "must" = c.must.map (document φ) ∧
      items ((bool l c).body φ) "must_not" = c.mustNot.map (document φ) := by
  rw [body_bool]
  refine ⟨?_, ?_, ?_, ?_⟩ <;> exact Json.items_present (keys_parts_nodup _) rfl

theorem get?_bool (l : Option Label) (c : BoolClauses Query) :
    ((bool l c).body φ).get? "minimum_should_match" = c.minimumShouldMatch ∧
      ((bool l c).body φ).get? "boost" = c.boost.map Json.ofFloat := by
  rw [body_bool, Json.get?_present (keys_parts_nodup _), Json.get?_present (keys_parts_nodup _)]
  exact ⟨rfl, rfl⟩

theorem items_disMax (l : Option Label) (d : DisMax Query) :
    items ((disMax l d).body φ) "queries" = d.queries.map (document φ) := by
  rw [body_disMax, items, Json.get?_present (keys_parts_nodup _)]
  rfl

theorem items_functionScore (l : Option Label) (s : FunctionScore Query) :
    items ((functionScore l s).body φ) "functions" =
      s.functions.map fun g => Json.object (present (functionParts φ g)) := by
  rw [body_functionScore, items, Json.get?_present (keys_parts_nodup _)]
  rfl

theorem get?_functionScore (l : Option Label) (s : FunctionScore Query) :
    ((functionScore l s).body φ).get? "query" = s.query.map (document φ) ∧
      ((functionScore l s).body φ).get? "min_score" = s.options.minScore.map Json.ofFloat := by
  rw [body_functionScore, Json.get?_present (keys_parts_nodup _),
    Json.get?_present (keys_parts_nodup _)]
  exact ⟨rfl, rfl⟩

theorem get?_functionParts (g : ScoreFunction Query) :
    (present (functionParts φ g)).get? "filter" = g.filter.map (document φ) := by
  have hdistinct : (Entries.keys (functionParts φ g)).Nodup := by
    simp [functionParts, Scoring.keys_parts]
  rw [Json.get?_present hdistinct]
  rfl

theorem get?_joining (j : Joining) (q : Query) :
    ((joining j q).body φ).get? "query" = some (q.document φ) := by
  rw [body_joining, Json.get?_present (keys_parts_nodup _)]
  cases j <;> rfl

/-! ## Normal queries -/

def IsRaw (q : Query) : Prop := ∃ name body, q = leaf (.raw name body)

theorem isRaw_of_name {l : Leaf}
    (h : (leaf l).name ∈
      ["bool", "dis_max", "function_score", "nested", "has_child", "has_parent"]) :
    (leaf l).IsRaw := by
  cases l with
  | raw name body => exact ⟨name, body, rfl⟩
  | _ => simp [name, Leaf.name] at h

theorem isRaw_of_redex {q : Query} (hroot : ¬ q.IsRedex) (h : Redex (q.document φ)) : q.IsRaw := by
  have h := Redex.cases_name h
  cases q with
  | leaf l =>
      refine isRaw_of_name ?_
      rcases h with ⟨hname, -⟩ | ⟨hname, -⟩ | ⟨hname, -⟩ <;> simp [hname]
  | bool l c =>
      refine absurd ?_ hroot
      obtain ⟨hf, hs, hm, hn⟩ := items_bool l c
      obtain ⟨hminimum, hboost⟩ := get?_bool l c
      simp only [name, String.reduceEq, false_and, or_false, true_and] at h
      rw [hf, hs, hm, hn, hminimum, hboost, List.length_map, List.length_map,
        Option.map_eq_none_iff] at h
      simp only [List.map_eq_nil_iff] at h
      exact .inr h
  | disMax l d =>
      refine absurd (.inr ?_) hroot
      simp only [name, String.reduceEq, false_and, or_false, true_and, false_or] at h
      rwa [items_disMax, List.length_map] at h
  | functionScore l s =>
      refine absurd (.inr ?_) hroot
      simp only [name, String.reduceEq, false_and, true_and, false_or] at h
      rwa [items_functionScore, (get?_functionScore l s).2, List.map_eq_nil_iff,
        Option.map_eq_none_iff] at h
  | joining j q => cases j <;> simp [name, Joining.name] at h
  | node l q => exact absurd trivial hroot

theorem exists_child_of_inner {q : Query} {d : Json} (hroot : ¬ q.IsRedex)
    (h : Inner (q.document φ) d) : q.IsRaw ∨ ∃ c ∈ q.children, d = c.document φ := by
  have h := Inner.cases_name h
  cases q with
  | leaf l =>
      refine .inl (isRaw_of_name ?_)
      rcases h with ⟨hname, -⟩ | ⟨hname, -⟩ | ⟨hname, -⟩ | ⟨hname, -⟩
      · simp [hname]
      · simp [hname]
      · simp [hname]
      · exact List.mem_append_right ["bool", "dis_max", "function_score"] hname
  | bool l c =>
      obtain ⟨hf, hs, hm, hn⟩ := items_bool l c
      simp only [name, String.reduceEq, false_and, or_false, true_and, List.mem_cons,
        List.not_mem_nil] at h
      obtain ⟨clause, hd⟩ := h
      have hmem : d ∈ (c.filter ++ c.should ++ c.must ++ c.mustNot).map (document φ) := by
        simp only [List.map_append, List.mem_append]
        cases clause with
        | filter => exact .inl (.inl (.inl (hf ▸ hd)))
        | should => exact .inl (.inl (.inr (hs ▸ hd)))
        | must => exact .inl (.inr (hm ▸ hd))
        | mustNot => exact .inr (hn ▸ hd)
      obtain ⟨q, hq, rfl⟩ := List.mem_map.mp hmem
      exact .inr ⟨q, hq, rfl⟩
  | disMax l a =>
      simp only [name, String.reduceEq, false_and, or_false, true_and, false_or, List.mem_cons,
        List.not_mem_nil, items_disMax] at h
      obtain ⟨q, hq, rfl⟩ := List.mem_map.mp h
      exact .inr ⟨q, hq, rfl⟩
  | functionScore l s =>
      simp only [name, String.reduceEq, false_and, or_false, true_and, false_or, List.mem_cons,
        List.not_mem_nil, items_functionScore, (get?_functionScore l s).1] at h
      rcases h with hd | ⟨g, hg, hd⟩
      · obtain ⟨q, hq, rfl⟩ := Option.map_eq_some_iff.mp hd
        exact .inr ⟨q, List.mem_append_left _ (by simp [hq]), rfl⟩
      · obtain ⟨sf, hsf, heq⟩ := List.mem_map.mp hg
        cases heq
        rw [get?_functionParts] at hd
        obtain ⟨q, hq, rfl⟩ := Option.map_eq_some_iff.mp hd
        exact .inr ⟨q, List.mem_append_right _ (List.mem_filterMap.mpr ⟨sf, hsf, hq⟩), rfl⟩
  | joining j q =>
      have hd : ((joining j q).body φ).get? "query" = some d := by
        rcases h with ⟨hname, -⟩ | ⟨hname, -⟩ | ⟨hname, -⟩ | ⟨-, hd⟩
        · cases j <;> simp [name, Joining.name] at hname
        · cases j <;> simp [name, Joining.name] at hname
        · cases j <;> simp [name, Joining.name] at hname
        · exact hd
      rw [get?_joining] at hd
      exact .inr ⟨q, List.mem_singleton.mpr rfl, (Option.some.inj hd).symm⟩
  | node l q => exact absurd trivial hroot

def Within (p q : Query) : Prop := ReflTransGen (fun q c => c ∈ q.children) q p

theorem Within.of_child {p q c : Query} (hc : c ∈ q.children) (h : Within p c) : Within p q :=
  ReflTransGen.head hc h

/-- What stands in the document of a normal query is such a query, or stands in a raw one. -/
theorem exists_within_of_part {q : Query} {d : Json} (hq : q.Normal) (h : Part (q.document φ) d) :
    (∃ p, Within p q ∧ p.Normal ∧ d = p.document φ) ∨
      ∃ p, Within p q ∧ p.IsRaw ∧ Part (p.document φ) d := by
  generalize he : q.document φ = e at h
  induction h using ReflTransGen.head_induction_on generalizing q with
  | refl => exact .inl ⟨q, .refl, hq, he.symm⟩
  | head hinner hrest ih =>
      subst he
      rcases exists_child_of_inner hq.root hinner with hraw | ⟨c, hc, rfl⟩
      · exact .inr ⟨q, .refl, hraw, ReflTransGen.head hinner hrest⟩
      · rcases ih (hq.inside c hc) rfl with ⟨p, hp, hnormal, rfl⟩ | ⟨p, hp, hraw, hd⟩
        · exact .inl ⟨p, hp.of_child hc, hnormal, rfl⟩
        · exact .inr ⟨p, hp.of_child hc, hraw, hd⟩

theorem exists_raw_of_redex {q : Query} {d : Json} (hq : q.Normal) (hd : Part (q.document φ) d)
    (hredex : Redex d) : ∃ p, Within p q ∧ p.IsRaw ∧ Part (p.document φ) d := by
  rcases exists_within_of_part hq hd with ⟨p, hp, hnormal, rfl⟩ | hraw
  · exact ⟨p, hp, isRaw_of_redex hnormal.root hredex, .refl⟩
  · exact hraw

theorem ofAlternatives?_cases (d : DisMax Query) :
    d.queries = [] ∧ ofAlternatives? d = none ∨
      (∃ q, d.queries = [q] ∧ ofAlternatives? d = some q) ∨
      2 ≤ d.queries.length ∧ ofAlternatives? d = some (disMax none d) := by
  obtain ⟨qs, t, b⟩ := d
  rcases qs with - | ⟨q, - | ⟨q', qs⟩⟩
  · exact .inl ⟨rfl, rfl⟩
  · exact .inr (.inl ⟨q, rfl, rfl⟩)
  · exact .inr (.inr ⟨by simp, rfl⟩)

/-- A query is left as it is, or as the reduction of a child, or as a query of such reductions. -/
theorem reduce_cases {q r : Query} (h : q.reduce = some r) :
    q = r ∨ (∃ c ∈ q.children, c.reduce = some r) ∨
      ¬ r.IsRaw ∧ ∀ x ∈ r.children, x = matchAll ∨ ∃ c ∈ q.children, c.reduce = some x := by
  cases q with
  | leaf l => exact .inl (Option.some.inj h)
  | bool l c =>
      obtain ⟨f, s, m, n, msm, b⟩ := c
      let reduced : BoolClauses Query :=
        ⟨reduceAll f, reduceAll s, reduceAll m, reduceAll n, msm, b⟩
      have hmembers : (bool none reduced).children = reduceAll (f ++ s ++ m ++ n) := by
        simp only [reduced, children, reduceAll_append]
      rw [reduce] at h
      rcases ofClauses?_cases reduced with ⟨-, hnone⟩ | ⟨x, honly, hsome⟩ | ⟨-, -, hsome⟩
      · cases hnone.symm.trans h
      · cases hsome.symm.trans h
        exact .inr (.inl (mem_reduceAll.mp (hmembers ▸ BoolClauses.mem_of_only? honly)))
      · cases hsome.symm.trans h
        exact .inr (.inr ⟨by simp [IsRaw], fun x hx => .inr (mem_reduceAll.mp (hmembers ▸ hx))⟩)
  | disMax l d =>
      obtain ⟨qs, t, b⟩ := d
      rw [reduce] at h
      rcases ofAlternatives?_cases ⟨reduceAll qs, t, b⟩ with
        ⟨-, hnone⟩ | ⟨x, honly, hsome⟩ | ⟨-, hsome⟩
      · cases hnone.symm.trans h
      · cases hsome.symm.trans h
        have hqs : reduceAll qs = [r] := honly
        exact .inr (.inl (mem_reduceAll.mp (hqs ▸ List.mem_cons_self)))
      · cases hsome.symm.trans h
        exact .inr (.inr ⟨by simp [IsRaw], fun x hx => .inr (mem_reduceAll.mp hx)⟩)
  | functionScore l s =>
      obtain ⟨q, fs, o⟩ := s
      rw [reduce] at h
      split at h
      · cases q with
        | none => cases h
        | some q => exact .inr (.inl ⟨q, by simp [children], h⟩)
      · cases h
        refine .inr (.inr ⟨by simp [IsRaw], fun x hx => .inr (mem_reduceAll.mp ?_)⟩)
        rwa [children, toList_reduceOption, filters_reduceFunctions, ← reduceAll_append] at hx
  | joining j q =>
      rw [reduce] at h
      split at h
      · rename_i inner hinner
        cases h
        refine .inr (.inr ⟨by simp [IsRaw], fun x hx => .inr ⟨q, List.mem_singleton.mpr rfl, ?_⟩⟩)
        exact List.mem_singleton.mp hx ▸ hinner
      · cases h
        exact .inr (.inr ⟨by simp [IsRaw], fun x hx => .inl (List.mem_singleton.mp hx)⟩)
  | node l q => exact .inr (.inl ⟨q, List.mem_singleton.mpr rfl, h⟩)

theorem within_of_reduce {q r p : Query} (h : q.reduce = some r) (hp : Within p r)
    (hraw : p.IsRaw) : Within p q := by
  induction q using children_induction generalizing r with
  | step q ih =>
      rcases reduce_cases h with rfl | ⟨c, hc, hr⟩ | ⟨hnot, hchildren⟩
      · exact hp
      · exact (ih c hc hr hp).of_child hc
      · rcases ReflTransGen.cases_head hp with rfl | ⟨x, hx, hp⟩
        · exact absurd hraw hnot
        · rcases hchildren x hx with rfl | ⟨c, hc, hr⟩
          · -- the query that matches everything is not raw, and there is none inside it
            rcases ReflTransGen.cases_head hp with rfl | ⟨y, hy, -⟩
            · obtain ⟨name, body, hname⟩ := hraw
              cases hname
            · cases hy
          · exact (ih c hc hr hp).of_child hc

end Query

end SearchClient
