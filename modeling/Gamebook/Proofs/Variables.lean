import Mathlib.Data.List.Nodup
import Mathlib.Data.List.Perm.Basic
import Gamebook.Proofs.Dictionary
import Gamebook.Proofs.Effects

namespace Gamebook

theorem Dictionary.insert_comm {α : Type u} {first second : String} (h : first ≠ second)
    (d : Dictionary α) (x y : α) :
    (d.insert first x).insert second y = (d.insert second y).insert first x := by
  refine ext_get? fun name => ?_
  rw [get?_insert, get?_insert, get?_insert, get?_insert]
  by_cases hfirst : name = first
  · subst hfirst
    rw [if_neg h]
    simp
  · simp [hfirst]

namespace Progress

theorem valueOf?_setVariable (p : Progress) (name other : String) (v : Value) :
    (p.setVariable name v).valueOf? other = if other = name then some v else p.valueOf? other :=
  Dictionary.get?_insert p.values name other v

/-- Progress is settled by what its variables answer and by its other parts. -/
theorem ext_valueOf? {p q : Progress} (hnode : p.node = q.node)
    (hvalues : ∀ name, p.valueOf? name = q.valueOf? name) (hinventory : p.inventory = q.inventory)
    (hhistory : p.history = q.history) (hachievements : p.achievements = q.achievements) : p = q := by
  have hsame : p.values = q.values := Dictionary.ext_get? hvalues
  cases p
  cases q
  simp_all

variable {α : Type} (change : α → Option Value → Value)

def rewriteOne (p : Progress) (e : String × α) : Progress :=
  p.setVariable e.1 (change e.2 (p.valueOf? e.1))

/-- Each entry in turn writes what it makes of the value under its name. -/
def rewrite (es : List (String × α)) (p : Progress) : Progress := es.foldl (rewriteOne change) p

theorem rewrite_keeps {γ : Type u} (view : Progress → γ)
    (hview : ∀ p values, view { p with values } = view p) (es : List (String × α)) (p : Progress) :
    view (rewrite change es p) = view p :=
  foldl_keeps view (rewriteOne change) (fun p _ => hview p _) es p

/-- An entry makes its value of the one that stood there before all of them. -/
theorem valueOf?_rewrite {es : List (String × α)} (h : (es.map Prod.fst).Nodup) (p : Progress)
    (name : String) : (rewrite change es p).valueOf? name =
      ((es.lookup name).map fun x => change x (p.valueOf? name)).or (p.valueOf? name) := by
  induction es generalizing p with
  | nil => rfl
  | cons e es ih =>
    obtain ⟨k, x⟩ := e
    obtain ⟨hk, hes⟩ := List.nodup_cons.mp h
    have hrest := ih hes (rewriteOne change p (k, x))
    have hstep : (rewriteOne change p (k, x)).valueOf? name =
        if name = k then some (change x (p.valueOf? k)) else p.valueOf? name :=
      valueOf?_setVariable p k name _
    rw [rewrite, List.foldl_cons, ← rewrite, hrest, hstep]
    by_cases hname : name = k
    · subst hname
      have hnone : es.lookup name = none := lookup_eq_none_of_notMem hk
      simp [hnone]
    · have hb : (name == k) = false := by simpa using hname
      simp [List.lookup_cons, hb, hname]

theorem rewriteOne_comm {e f : String × α} (h : e.1 ≠ f.1) (p : Progress) :
    rewriteOne change (rewriteOne change p e) f = rewriteOne change (rewriteOne change p f) e := by
  have hf : (rewriteOne change p e).valueOf? f.1 = p.valueOf? f.1 :=
    (valueOf?_setVariable p e.1 f.1 _).trans (if_neg h.symm)
  have he : (rewriteOne change p f).valueOf? e.1 = p.valueOf? e.1 :=
    (valueOf?_setVariable p f.1 e.1 _).trans (if_neg h)
  let written := fun e : String × α => change e.2 (p.valueOf? e.1)
  calc rewriteOne change (rewriteOne change p e) f
      = (p.setVariable e.1 (written e)).setVariable f.1 (written f) :=
        congrArg (fun v => (rewriteOne change p e).setVariable f.1 (change f.2 v)) hf
    _ = (p.setVariable f.1 (written f)).setVariable e.1 (written e) :=
        congrArg (fun values => { p with values }) (Dictionary.insert_comm h p.values _ _)
    _ = rewriteOne change (rewriteOne change p f) e :=
        congrArg (fun v => (rewriteOne change p f).setVariable e.1 (change e.2 v)) he.symm

/-- Entries under distinct names may be taken in any order. -/
theorem rewrite_perm {es fs : List (String × α)} (h : fs.Perm es) (hes : (es.map Prod.fst).Nodup)
    (p : Progress) : rewrite change fs p = rewrite change es p := by
  refine h.foldl_eq' (fun e he f hf q => ?_) p
  by_cases hname : e.1 = f.1
  · have hsame : e = f := List.inj_on_of_nodup_map hes (h.mem_iff.mp he) (h.mem_iff.mp hf) hname
    rw [hsame]
  · exact rewriteOne_comm change hname q

end Progress

end Gamebook
