import Mathlib.Data.List.Induction
import Mathlib.Order.Lattice

/-! Greedy matching on a list of weighted edges between two sides. The heaviest edge is taken,
the first one among equals, every edge that shares an end with it is struck out, and so on. -/
namespace Greedy

variable {E F A B R : Type*} [LinearOrder R]

/- The scan for the heaviest edge. -/

def keep (weight : E → R) (best : Option E) (e : E) : Option E :=
  match best with
  | none => some e
  | some b => if weight b < weight e then some e else some b

def heaviest (weight : E → R) (es : List E) : Option E := es.foldl (keep weight) none

/-- `e` outweighs what comes before it and is not outweighed by what comes after. -/
def Leads (weight : E → R) (e : E) (es : List E) : Prop :=
  ∃ before after, es = before ++ e :: after ∧
    (∀ f ∈ before, weight f < weight e) ∧ ∀ f ∈ after, weight f ≤ weight e

theorem Leads.mem {weight : E → R} {e : E} {es : List E} (h : Leads weight e es) : e ∈ es := by
  obtain ⟨before, after, rfl, _⟩ := h
  exact List.mem_append_right _ List.mem_cons_self

theorem Leads.max {weight : E → R} {e : E} {es : List E} (h : Leads weight e es) :
    ∀ f ∈ es, weight f ≤ weight e := by
  obtain ⟨before, after, rfl, lighter, light⟩ := h
  intro f hf
  rcases List.mem_append.mp hf with hf | hf
  · exact (lighter f hf).le
  · rcases List.mem_cons.mp hf with hf | hf
    · rw [hf]
    · exact light f hf

theorem Leads.filter {weight : E → R} {e : E} {es : List E} (h : Leads weight e es)
    (p : E → Bool) (kept : p e = true) : Leads weight e (es.filter p) := by
  obtain ⟨before, after, rfl, lighter, light⟩ := h
  refine ⟨before.filter p, after.filter p, ?_, ?_, ?_⟩
  · rw [List.filter_append, List.filter_cons_of_pos kept]
  · exact fun f hf => lighter f (List.mem_filter.mp hf).1
  · exact fun f hf => light f (List.mem_filter.mp hf).1

theorem heaviest_snoc (weight : E → R) (es : List E) (e : E) :
    heaviest weight (es ++ [e]) = keep weight (heaviest weight es) e := by
  rw [heaviest, List.foldl_append]
  rfl

theorem heaviest_leads (weight : E → R) (es : List E) :
    (es = [] ∧ heaviest weight es = none) ∨
      ∃ e, heaviest weight es = some e ∧ Leads weight e es := by
  induction es using List.reverseRecOn with
  | nil => exact Or.inl ⟨rfl, rfl⟩
  | append_singleton es e ih =>
    right
    rw [heaviest_snoc]
    rcases ih with ⟨rfl, h⟩ | ⟨b, h, before, after, split, lighter, light⟩
    · refine ⟨e, by rw [h]; rfl, [], [], rfl, ?_, ?_⟩ <;> simp
    · by_cases heavier : weight b < weight e
      · refine ⟨e, by rw [h, keep, if_pos heavier], es, [], by simp, ?_, by simp⟩
        intro f hf
        have lead : Leads weight b es := ⟨before, after, split, lighter, light⟩
        exact (lead.max f hf).trans_lt heavier
      · refine ⟨b, by rw [h, keep, if_neg heavier], before, after ++ [e], ?_, lighter, ?_⟩
        · simp [split]
        intro f hf
        rcases List.mem_append.mp hf with hf | hf
        · exact light f hf
        · rw [List.mem_singleton.mp hf]
          exact not_lt.mp heavier

theorem heaviest_keeps (weight : E → R) (e : E) (es : List E)
    (light : ∀ f ∈ es, weight f ≤ weight e) : es.foldl (keep weight) (some e) = some e := by
  induction es with
  | nil => rfl
  | cons f es ih =>
    rw [List.foldl_cons, keep, if_neg (not_lt.mpr (light f List.mem_cons_self))]
    exact ih (fun g hg => light g (List.mem_cons_of_mem f hg))

theorem heaviest_eq_some (weight : E → R) (e : E) (es : List E) :
    heaviest weight es = some e ↔ Leads weight e es := by
  constructor
  · intro h
    rcases heaviest_leads weight es with ⟨_, absent⟩ | ⟨b, found, leads⟩
    · rw [h] at absent
      contradiction
    · rw [h] at found
      exact Option.some.inj found ▸ leads
  · rintro ⟨before, after, rfl, lighter, light⟩
    rw [heaviest, List.foldl_append, List.foldl_cons]
    have first : keep weight (before.foldl (keep weight) none) e = some e := by
      rcases heaviest_leads weight before with ⟨_, absent⟩ | ⟨b, found, leads⟩
      · change keep weight (heaviest weight before) e = some e
        rw [absent, keep]
      · change keep weight (heaviest weight before) e = some e
        rw [found, keep, if_pos (lighter b leads.mem)]
    rw [first]
    exact heaviest_keeps weight e after light

theorem heaviest_eq_none (weight : E → R) (es : List E) :
    heaviest weight es = none ↔ es = [] := by
  rcases heaviest_leads weight es with ⟨empty, absent⟩ | ⟨e, found, leads⟩
  · exact ⟨fun _ => empty, fun _ => absent⟩
  · constructor
    · intro h
      rw [found] at h
      contradiction
    · rintro rfl
      cases leads.mem

theorem heaviest_map (weight : E → R) (weight' : F → R) (φ : E → F) (es : List E)
    (same : ∀ e ∈ es, weight' (φ e) = weight e) :
    heaviest weight' (es.map φ) = (heaviest weight es).map φ := by
  cases h : heaviest weight es with
  | none =>
    rw [heaviest_eq_none] at h
    subst h
    rfl
  | some e =>
    rw [heaviest_eq_some] at h
    obtain ⟨before, after, rfl, lighter, light⟩ := h
    rw [Option.map_some, heaviest_eq_some]
    have own := same e (by simp)
    refine ⟨before.map φ, after.map φ, by simp, ?_, ?_⟩
    · intro g hg
      obtain ⟨f, hf, rfl⟩ := List.mem_map.mp hg
      rw [own, same f (List.mem_append_left _ hf)]
      exact lighter f hf
    · intro g hg
      obtain ⟨f, hf, rfl⟩ := List.mem_map.mp hg
      rw [own, same f (List.mem_append_right _ (List.mem_cons_of_mem e hf))]
      exact light f hf

/- The matching. -/

variable [DecidableEq A] [DecidableEq B]

def clash (left : E → A) (right : E → B) (e f : E) : Bool :=
  decide (left e = left f) || decide (right e = right f)

theorem clash_self (left : E → A) (right : E → B) (e : E) :
    clash left right e e = true := by
  simp [clash]

def strike (left : E → A) (right : E → B) (e : E) (es : List E) : List E :=
  es.filter (fun f => !clash left right e f)

theorem strike_length_lt (left : E → A) (right : E → B) {e : E} {es : List E} (h : e ∈ es) :
    (strike left right e es).length < es.length := by
  apply List.length_filter_lt_length_iff_exists.mpr
  exact ⟨e, h, by simp [clash_self]⟩

def greedy (left : E → A) (right : E → B) (weight : E → R) (es : List E) : List E :=
  match _h : heaviest weight es with
  | none => []
  | some e => e :: greedy left right weight (strike left right e es)
termination_by es.length
decreasing_by exact strike_length_lt left right ((heaviest_eq_some weight e es).mp _h).mem

variable {left : E → A} {right : E → B} {weight : E → R}

theorem greedy_nil : greedy left right weight [] = [] := by
  rw [greedy]
  rfl

theorem greedy_of_leads {e : E} {es : List E} (h : Leads weight e es) :
    greedy left right weight es = e :: greedy left right weight (strike left right e es) := by
  rw [greedy]
  have found := (heaviest_eq_some weight e es).mpr h
  split
  · rename_i absent
    rw [found] at absent
    contradiction
  · rename_i b same
    rw [found] at same
    rw [Option.some.inj same]

/-- The induction of the matching: either no edge is left, or the leading one is taken. -/
theorem greedy_induction (left : E → A) (right : E → B) (weight : E → R)
    {motive : List E → Prop} (nil : motive [])
    (take : ∀ e es, Leads weight e es → motive (strike left right e es) → motive es)
    (es : List E) : motive es := by
  rcases heaviest_leads weight es with ⟨rfl, _⟩ | ⟨e, _, leads⟩
  · exact nil
  · exact take e es leads (greedy_induction left right weight nil take (strike left right e es))
termination_by es.length
decreasing_by exact strike_length_lt left right leads.mem

theorem greedy_subset (left : E → A) (right : E → B) (weight : E → R) (es : List E) :
    ∀ e ∈ greedy left right weight es, e ∈ es := by
  induction es using greedy_induction left right weight with
  | nil => simp [greedy_nil]
  | take e es leads ih =>
    intro f hf
    rw [greedy_of_leads leads] at hf
    rcases List.mem_cons.mp hf with hf | hf
    · rw [hf]
      exact leads.mem
    · exact (List.mem_filter.mp (ih f hf)).1

theorem greedy_pairwise (left : E → A) (right : E → B) (weight : E → R) (es : List E) :
    (greedy left right weight es).Pairwise
    (fun e f => left e ≠ left f ∧ right e ≠ right f ∧ weight f ≤ weight e) := by
  induction es using greedy_induction left right weight with
  | nil =>
    rw [greedy_nil]
    exact List.Pairwise.nil
  | take e es leads ih =>
    rw [greedy_of_leads leads]
    refine List.Pairwise.cons ?_ ih
    intro f hf
    have member := List.mem_filter.mp (greedy_subset _ _ _ _ f hf)
    have apart : left e ≠ left f ∧ right e ≠ right f := by simpa [clash] using member.2
    exact ⟨apart.1, apart.2, leads.max f member.1⟩

/-- Every edge is taken, or shares an end with a taken edge that is at least as heavy. -/
theorem greedy_blocks (left : E → A) (right : E → B) (weight : E → R) (es : List E) :
    ∀ f ∈ es, ∃ e ∈ greedy left right weight es,
    (left e = left f ∨ right e = right f) ∧ weight f ≤ weight e := by
  induction es using greedy_induction left right weight with
  | nil => simp
  | take e es leads ih =>
    intro f hf
    rw [greedy_of_leads leads]
    by_cases struck : clash left right e f = true
    · refine ⟨e, List.mem_cons_self, ?_, leads.max f hf⟩
      simpa [clash] using struck
    · have left_over : f ∈ strike left right e es := by
        rw [strike, List.mem_filter]
        exact ⟨hf, by simpa using struck⟩
      obtain ⟨g, hg, blocked⟩ := ih f left_over
      exact ⟨g, List.mem_cons_of_mem e hg, blocked⟩

/-- A property shared by all edges that clash can be filtered before or after the matching. -/
theorem greedy_filter (p : E → Bool) (es : List E)
    (closed : ∀ e ∈ es, ∀ f ∈ es, clash left right e f = true → p e = p f) :
    (greedy left right weight es).filter p = greedy left right weight (es.filter p) := by
  induction es using greedy_induction left right weight with
  | nil => simp [greedy_nil]
  | take e es leads ih =>
    have rest := ih (fun f hf g hg => closed f (List.mem_filter.mp hf).1 g
      (List.mem_filter.mp hg).1)
    have swap : (strike left right e es).filter p = strike left right e (es.filter p) := by
      rw [strike, strike, List.filter_filter, List.filter_filter]
      exact List.filter_congr (fun f _ => Bool.and_comm _ _)
    rw [greedy_of_leads leads]
    cases kept : p e with
    | true =>
      rw [List.filter_cons_of_pos kept, rest, greedy_of_leads (leads.filter p kept), swap]
    | false =>
      rw [List.filter_cons_of_neg (by simp [kept]), rest, swap]
      congr 1
      apply List.filter_eq_self.mpr
      intro f hf
      have member := List.mem_filter.mp hf
      have unstruck : clash left right e f ≠ true := by
        intro struck
        have same := closed e leads.mem f member.1 struck
        rw [kept, member.2] at same
        contradiction
      simpa using unstruck

theorem greedy_map {A' B' : Type*} [DecidableEq A'] [DecidableEq B'] {left' : F → A'}
    {right' : F → B'} {weight' : F → R} (φ : E → F) (es : List E)
    (same : ∀ e ∈ es, weight' (φ e) = weight e)
    (ends : ∀ e ∈ es, ∀ f ∈ es, (left' (φ e) = left' (φ f) ↔ left e = left f) ∧
      (right' (φ e) = right' (φ f) ↔ right e = right f)) :
    greedy left' right' weight' (es.map φ) = (greedy left right weight es).map φ := by
  induction es using greedy_induction left right weight with
  | nil => simp [greedy_nil]
  | take e es leads ih =>
    have rest := ih (fun f hf => same f (List.mem_filter.mp hf).1)
      (fun f hf g hg => ends f (List.mem_filter.mp hf).1 g (List.mem_filter.mp hg).1)
    have leads' : Leads weight' (φ e) (es.map φ) := by
      rw [← heaviest_eq_some, heaviest_map weight weight' φ es same,
        (heaviest_eq_some weight e es).mpr leads, Option.map_some]
    have struck : strike left' right' (φ e) (es.map φ) = (strike left right e es).map φ := by
      rw [strike, strike, List.filter_map]
      congr 1
      apply List.filter_congr
      intro f hf
      simp only [Function.comp_apply, clash, ends e leads.mem f hf]
    rw [greedy_of_leads leads, greedy_of_leads leads', struck, rest, List.map_cons]

/- Stable matchings. -/

/-- The edge is worth more than whatever the matching has at either of its ends. -/
def Blocking (left : E → A) (right : E → B) (weight : E → R) (M : List E) (f : E) : Prop :=
  (∀ e ∈ M, left e = left f → weight e < weight f) ∧
    ∀ e ∈ M, right e = right f → weight e < weight f

/-- A matching, heaviest edge first, that no edge blocks. -/
structure Stable (left : E → A) (right : E → B) (weight : E → R) (es M : List E) : Prop where
  subset : ∀ e ∈ M, e ∈ es
  apart : M.Pairwise (fun e f => left e ≠ left f ∧ right e ≠ right f)
  sorted : M.Pairwise (fun e f => weight f ≤ weight e)
  unblocked : ∀ f ∈ es, ¬Blocking left right weight M f

theorem greedy_stable (es : List E) :
    Stable left right weight es (greedy left right weight es) where
  subset := greedy_subset left right weight es
  apart := (greedy_pairwise left right weight es).imp fun h => ⟨h.1, h.2.1⟩
  sorted := (greedy_pairwise left right weight es).imp fun h => h.2.2
  unblocked f member blocking := by
    obtain ⟨e, taken, shared | shared, heavier⟩ := greedy_blocks left right weight es f member
    · exact absurd (blocking.1 e taken shared) (not_lt.mpr heavier)
    · exact absurd (blocking.2 e taken shared) (not_lt.mpr heavier)

omit [DecidableEq A] [DecidableEq B] in
/-- The leading edge of distinct weights is in every stable matching, and comes first. -/
theorem Stable.leads {es M : List E} (stable : Stable left right weight es M)
    (distinct : ∀ e ∈ es, ∀ f ∈ es, weight e = weight f → e = f) {e : E}
    (leads : Leads weight e es) : ∃ rest, M = e :: rest := by
  have member : e ∈ M := by
    have unblocked := stable.unblocked e leads.mem
    simp only [Blocking, not_and_or, not_forall, not_lt] at unblocked
    obtain ⟨f, taken, _, heavier⟩ | ⟨f, taken, _, heavier⟩ := unblocked
    · have same := le_antisymm heavier (leads.max f (stable.subset f taken))
      exact distinct e leads.mem f (stable.subset f taken) same ▸ taken
    · have same := le_antisymm heavier (leads.max f (stable.subset f taken))
      exact distinct e leads.mem f (stable.subset f taken) same ▸ taken
  cases M with
  | nil => cases member
  | cons first rest =>
    refine ⟨rest, ?_⟩
    rcases List.mem_cons.mp member with rfl | later
    · rfl
    · have there := stable.subset first List.mem_cons_self
      have heavier := (List.pairwise_cons.mp stable.sorted).1 e later
      rw [distinct first there e leads.mem (le_antisymm (leads.max first there) heavier)]

theorem Stable.strike {es rest : List E} {e : E} (stable : Stable left right weight es (e :: rest)) :
    Stable left right weight (strike left right e es) rest := by
  obtain ⟨first, apart⟩ := List.pairwise_cons.mp stable.apart
  constructor
  · intro f taken
    have away := first f taken
    exact List.mem_filter.mpr ⟨stable.subset f (List.mem_cons_of_mem e taken),
      by simpa [clash] using away⟩
  · exact apart
  · exact (List.pairwise_cons.mp stable.sorted).2
  · intro f member blocking
    obtain ⟨there, unstruck⟩ := List.mem_filter.mp member
    have away : left e ≠ left f ∧ right e ≠ right f := by simpa [clash] using unstruck
    refine stable.unblocked f there ⟨?_, ?_⟩
    · exact List.forall_mem_cons.mpr ⟨fun shared => absurd shared away.1, blocking.1⟩
    · exact List.forall_mem_cons.mpr ⟨fun shared => absurd shared away.2, blocking.2⟩

theorem Stable.unique {es M : List E} (stable : Stable left right weight es M)
    (distinct : ∀ e ∈ es, ∀ f ∈ es, weight e = weight f → e = f) :
    M = greedy left right weight es := by
  induction es using greedy_induction left right weight generalizing M with
  | nil =>
    rw [greedy_nil]
    exact List.eq_nil_iff_forall_not_mem.mpr fun e taken => by cases stable.subset e taken
  | take e es leads ih =>
    obtain ⟨rest, rfl⟩ := stable.leads distinct leads
    rw [greedy_of_leads leads, ← ih stable.strike fun f hf g hg =>
      distinct f (List.mem_filter.mp hf).1 g (List.mem_filter.mp hg).1]

omit [DecidableEq A] [DecidableEq B] in
theorem Stable.map {A' B' : Type*} {left' : F → A'} {right' : F → B'} {weight' : F → R}
    {es M : List E} {es' : List F} (φ : E → F) (stable : Stable left right weight es M)
    (image : ∀ f, f ∈ es' ↔ ∃ e ∈ es, φ e = f) (same : ∀ e ∈ es, weight' (φ e) = weight e)
    (ends : ∀ e ∈ es, ∀ f ∈ es, (left' (φ e) = left' (φ f) ↔ left e = left f) ∧
      (right' (φ e) = right' (φ f) ↔ right e = right f)) :
    Stable left' right' weight' es' (M.map φ) := by
  constructor
  · intro f taken
    obtain ⟨e, he, rfl⟩ := List.mem_map.mp taken
    exact (image _).mpr ⟨e, stable.subset e he, rfl⟩
  · refine List.pairwise_map.mpr (stable.apart.imp_of_mem ?_)
    intro e f he hf apart
    have renamed := ends e (stable.subset e he) f (stable.subset f hf)
    exact ⟨renamed.1.not.mpr apart.1, renamed.2.not.mpr apart.2⟩
  · refine List.pairwise_map.mpr (stable.sorted.imp_of_mem ?_)
    intro e f he hf lighter
    rw [same e (stable.subset e he), same f (stable.subset f hf)]
    exact lighter
  · intro f member blocking
    obtain ⟨e, there, rfl⟩ := (image f).mp member
    refine stable.unblocked e there ⟨?_, ?_⟩
    · intro g taken shared
      have old := stable.subset g taken
      have lighter := blocking.1 (φ g) (List.mem_map_of_mem taken)
        ((ends g old e there).1.mpr shared)
      rwa [same g old, same e there] at lighter
    · intro g taken shared
      have old := stable.subset g taken
      have lighter := blocking.2 (φ g) (List.mem_map_of_mem taken)
        ((ends g old e there).2.mpr shared)
      rwa [same g old, same e there] at lighter

end Greedy
