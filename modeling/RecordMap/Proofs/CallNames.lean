import RecordMap.Proofs.Lowering

/-!
# The names of calls

A call that has no meaning of its own in SQL keeps its name, and nothing checks the name.  What is
known of such names in a filter is known of the names in its term (`callsHave_lower`), since the
names that have a meaning come from a fixed list.
-/

namespace RecordMap

open Sql

namespace Sql.Term

variable (p : String → Bool)

mutual

/-- Whether `p` holds of the name of every call. -/
def callsHave : Term → Bool
  | .column _ | .literal _ => true
  | .binary _ l r => callsHave l && callsHave r
  | .isNull _ t => callsHave t
  | .like t u => callsHave t && callsHave u
  | .equals t u => callsHave t && callsHave u
  | .pattern _ _ t => callsHave t
  | .call name ts => p name && allCallsHave ts

def allCallsHave : List Term → Bool
  | [] => true
  | t :: ts => callsHave t && allCallsHave ts

end

theorem allCallsHave_iff : ∀ ts : List Term,
    allCallsHave p ts = true ↔ ∀ t ∈ ts, t.callsHave p = true
  | [] => by simp [allCallsHave]
  | t :: ts => by simp [allCallsHave, allCallsHave_iff ts]

variable {p}

theorem callsHave_compare {c : Connective} {l r t : Term} (h : compare c l r = .ok t)
    (hl : l.callsHave p = true) (hr : r.callsHave p = true) : t.callsHave p = true := by
  rcases compare_cases h with ⟨_, x, -, hx, rfl⟩ | ⟨-, -, rfl⟩
  · rcases hx with ⟨-, rfl⟩ | ⟨-, rfl⟩
    · rw [callsHave, hr]
    · rw [callsHave, hl]
  · rw [callsHave, hl, hr, Bool.and_true]

theorem callsHave_surround {m : Method} {leading trailing : Bool} {x t : Term}
    (h : surround m leading trailing x = .ok t) (hx : x.callsHave p = true) :
    t.callsHave p = true := by
  rcases surround_cases h with ⟨_, _, -, -, rfl⟩ | ⟨-, rfl⟩
  · rfl
  · rw [callsHave, hx]

theorem callsHave_applyMethod {m : Method} {x y t : Term} (h : applyMethod m x y = .ok t)
    (hx : x.callsHave p = true) (hy : y.callsHave p = true) : t.callsHave p = true := by
  rcases applyMethod_cases h with ⟨-, rfl⟩ | ⟨-, rfl⟩ | ⟨_, _, _, -, hp, rfl⟩
  · rw [callsHave, hx, hy, Bool.and_true]
  · rw [callsHave, hx, hy, Bool.and_true]
  · rw [callsHave, hx, callsHave_surround hp hy, Bool.and_true]

theorem callsHave_apply {name : String} {ts : List Term} {t : Term} (h : apply name ts = .ok t)
    (hm : ∀ m : Method, p m.name = true) (hn : (p name || (Method.ofName? name).isSome) = true)
    (hts : ∀ u ∈ ts, u.callsHave p = true) : t.callsHave p = true := by
  have hname : p name = true := by
    rcases hm' : Method.ofName? name with _ | m
    · simpa [hm'] using hn
    · rw [Method.ofName?_eq_some.1 hm']
      exact hm m
  rcases apply_cases h with ⟨-, rfl⟩ | ⟨m, x, y, -, rfl, happly⟩
  · rw [callsHave, hname, (allCallsHave_iff p _).2 hts, Bool.and_true]
  · exact callsHave_applyMethod happly (hts x (by simp)) (hts y (by simp))

end Sql.Term

namespace Filter

variable (p : String → Bool)

mutual

/-- Whether `p` holds of the name of every call that has no meaning of its own in SQL. -/
def callsHave : Filter → Bool
  | .value _ | .field _ => true
  | .binary _ l r => callsHave l && callsHave r
  | .captured _ f => callsHave f
  | .convert f _ => callsHave f
  | .method receiver name fs =>
    callsHave receiver && (p name || (Method.ofName? name).isSome) && allCallsHave fs
  | .function name fs => (p name || (Method.ofName? name).isSome) && allCallsHave fs

def allCallsHave : List Filter → Bool
  | [] => true
  | f :: fs => callsHave f && allCallsHave fs

end

variable {p}

mutual

theorem callsHave_lower (hm : ∀ m : Method, p m.name = true) (m : Model) :
    ∀ (f : Filter) {t : Term}, f.lower m = .ok t → f.callsHave p = true → t.callsHave p = true
  | .value v, t, h, _ => by rw [← Except.ok.inj h, Term.callsHave]
  | .field name, t, h, _ => by
    rw [lower] at h
    obtain ⟨c, -, rfl⟩ := Outcome.map_eq_ok_iff.1 h
    rw [Term.callsHave]
  | .binary (.arithmetic a) _ _, t, h, _ => by cases h
  | .binary (.connective c) l r, t, h, hf => by
    simp only [callsHave, Bool.and_eq_true] at hf
    rw [lower] at h
    obtain ⟨l', hl, h⟩ := Outcome.bind_eq_ok h
    obtain ⟨r', hr, h⟩ := Outcome.bind_eq_ok h
    exact Term.callsHave_compare h (callsHave_lower hm m l hl hf.1)
      (callsHave_lower hm m r hr hf.2)
  | .captured name f, t, h, hf => by
    rw [callsHave] at hf
    rw [lower] at h
    obtain ⟨t', ht, h⟩ := Outcome.bind_eq_ok h
    obtain ⟨v, -, rfl⟩ := Term.capture_eq_ok h
    rw [Term.callsHave]
  | .convert f ty, t, h, hf => by
    rw [callsHave] at hf
    rw [lower] at h
    obtain ⟨t', ht, h⟩ := Outcome.bind_eq_ok h
    rcases Term.convert_cases h with ⟨_, _, -, -, rfl⟩ | ⟨-, rfl⟩
    · rw [Term.callsHave]
    · exact callsHave_lower hm m f ht hf
  | .method receiver name fs, t, h, hf => by
    simp only [callsHave, Bool.and_eq_true] at hf
    rw [lower] at h
    obtain ⟨t', ht, h⟩ := Outcome.bind_eq_ok h
    obtain ⟨ts, hts, h⟩ := Outcome.bind_eq_ok h
    refine Term.callsHave_apply h hm hf.1.2 fun u hu => ?_
    rcases List.mem_cons.1 hu with rfl | hu
    · exact callsHave_lower hm m receiver ht hf.1.1
    · exact callsHave_lowerAll hm m fs hts hf.2 u hu
  | .function name fs, t, h, hf => by
    simp only [callsHave, Bool.and_eq_true] at hf
    rw [lower] at h
    obtain ⟨ts, hts, h⟩ := Outcome.bind_eq_ok h
    exact Term.callsHave_apply h hm hf.1 (callsHave_lowerAll hm m fs hts hf.2)

theorem callsHave_lowerAll (hm : ∀ m : Method, p m.name = true) (m : Model) :
    ∀ (fs : List Filter) {ts : List Term}, lowerAll m fs = .ok ts → allCallsHave p fs = true →
      ∀ t ∈ ts, t.callsHave p = true
  | [], ts, h, _ => by
    rw [← Except.ok.inj h]
    simp
  | f :: fs, ts, h, hf => by
    simp only [allCallsHave, Bool.and_eq_true] at hf
    rw [lowerAll] at h
    obtain ⟨t', ht, h⟩ := Outcome.bind_eq_ok h
    obtain ⟨ts', hts, h⟩ := Outcome.bind_eq_ok h
    rw [← Except.ok.inj h]
    intro u hu
    rcases List.mem_cons.1 hu with rfl | hu
    · exact callsHave_lower hm m f ht hf.1
    · exact callsHave_lowerAll hm m fs hts hf.2 u hu

end

end Filter

end RecordMap
