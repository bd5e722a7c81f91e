import Mathlib

/-!
# Programs that append to a pool

A program takes the entries of a pool and returns them with some of its own appended,
or fails. `Emits` describes the appended entries as long as the pool has room: a pool
that is full overwrites, and nothing is said about its contents. `Appends` names the
entries, and the length of a pool that they do not fit into. The rules compose such
descriptions along sequences and loops.
-/

namespace OmapHal.Core

open List

variable {ε σ α : Type*} {cap : Nat} {Fails : σ → Prop} {P Q : List ε → Prop} {R : ε → Prop}
  {prog prog' : List ε → Except σ (List ε)}

/-- The program fails in the allowed ways only, and what it appends to a pool that stays
below its capacity satisfies `P`. -/
def Emits (cap : Nat) (Fails : σ → Prop) (P : List ε → Prop)
    (prog : List ε → Except σ (List ε)) : Prop :=
  ∀ xs, (∀ stop, prog xs = .error stop → Fails stop) ∧
    ∀ ys, prog xs = .ok ys → ys.length < cap → ∃ es, ys = xs ++ es ∧ P es

theorem Emits.mono (h : Emits cap Fails P prog) (hPQ : ∀ es, P es → Q es) :
    Emits cap Fails Q prog := by
  intro xs
  refine ⟨(h xs).1, fun ys hys hcap => ?_⟩
  obtain ⟨es, heq, hP⟩ := (h xs).2 ys hys hcap
  exact ⟨es, heq, hPQ es hP⟩

/-- A program that stops in an allowed way satisfies any description. -/
theorem Emits.error {stop : σ} (h : Fails stop) : Emits cap Fails P fun _ => .error stop := by
  intro xs
  constructor
  · intro stop' hstop
    cases hstop
    exact h
  · intro ys hys
    cases hys

/-- A program that appends nothing. -/
theorem Emits.nil (h : P []) : Emits cap Fails P fun xs => .ok xs := by
  intro xs
  constructor
  · intro stop hstop
    cases hstop
  · intro ys hys _
    cases hys
    exact ⟨[], (append_nil xs).symm, h⟩

/-- One program after the other. -/
theorem Emits.bind (h : Emits cap Fails P prog) (h' : Emits cap Fails Q prog') :
    Emits cap Fails (fun es => ∃ as bs, es = as ++ bs ∧ P as ∧ Q bs)
      fun xs => (prog xs).bind prog' := by
  intro xs
  constructor
  · intro stop hstop
    dsimp only at hstop
    cases hprog : prog xs with
    | error stop' =>
      rw [hprog] at hstop
      cases hstop
      exact (h xs).1 _ hprog
    | ok ys =>
      rw [hprog] at hstop
      exact (h' ys).1 stop hstop
  · intro zs hzs hcap
    dsimp only at hzs
    cases hprog : prog xs with
    | error stop =>
      rw [hprog] at hzs
      cases hzs
    | ok ys =>
      rw [hprog] at hzs
      obtain ⟨bs, rfl, hQ⟩ := (h' ys).2 zs hzs hcap
      rw [length_append] at hcap
      obtain ⟨as, rfl, hP⟩ := (h xs).2 ys hprog (by omega)
      exact ⟨as ++ bs, append_assoc xs as bs, as, bs, rfl, hP, hQ⟩

variable {f : List ε → α → Except σ (List ε)} {as : List α} {a : α} {i : Nat}

/-- A loop whose rounds append entries of one kind appends entries of that kind. -/
theorem Emits.foldlM (h : ∀ a ∈ as, Emits cap Fails (fun es => ∀ e ∈ es, R e) fun xs => f xs a) :
    Emits cap Fails (fun es => ∀ e ∈ es, R e) fun xs => as.foldlM f xs := by
  induction as with
  | nil => exact Emits.nil fun e he => by cases he
  | cons a as ih =>
    have hbind := (h a mem_cons_self).bind
      (ih fun b hb => h b (mem_cons_of_mem a hb))
    refine hbind.mono fun es hes => ?_
    obtain ⟨bs, cs, rfl, hb, hc⟩ := hes
    intro e he
    exact (mem_append.mp he).elim (hb e) (hc e)

/-- What a round appends is followed only by what the later rounds append. -/
theorem Emits.foldlM_at (hi : as[i]? = some a) (ha : Emits cap Fails P fun xs => f xs a)
    (hbefore : ∀ b ∈ as, Emits cap Fails (fun _ => True) fun xs => f xs b)
    (hafter : ∀ j b, i < j → as[j]? = some b →
      Emits cap Fails (fun es => ∀ e ∈ es, R e) fun xs => f xs b) :
    Emits cap Fails (fun es => ∃ before mid after, es = before ++ mid ++ after ∧ P mid ∧
      ∀ e ∈ after, R e) fun xs => as.foldlM f xs := by
  induction as generalizing i with
  | nil => cases hi
  | cons b as ih =>
    cases i with
    | zero =>
      rw [getElem?_cons_zero, Option.some.injEq] at hi
      subst hi
      have hrest : Emits cap Fails (fun es => ∀ e ∈ es, R e) fun xs => as.foldlM f xs := by
        refine Emits.foldlM fun c hc => ?_
        obtain ⟨j, hj⟩ := getElem?_of_mem hc
        exact hafter (j + 1) c (Nat.succ_pos j) hj
      refine (ha.bind hrest).mono fun es hes => ?_
      obtain ⟨mid, after, rfl, hP, hR⟩ := hes
      exact ⟨[], mid, after, rfl, hP, hR⟩
    | succ i =>
      rw [getElem?_cons_succ] at hi
      have hrest := ih hi (fun c hc => hbefore c (mem_cons_of_mem b hc))
        fun j c hj hc => hafter (j + 1) c (Nat.succ_lt_succ hj) hc
      refine ((hbefore b mem_cons_self).bind hrest).mono fun es hes => ?_
      obtain ⟨bs, -, rfl, -, before, mid, after, rfl, hP, hR⟩ := hes
      exact ⟨bs ++ before, mid, after, by simp only [append_assoc], hP, hR⟩

/-- A loop that returns was able to do each of its rounds. -/
theorem foldlM_ok {β : Type*} {g : β → α → Except σ β} {b c : β} (h : as.foldlM g b = .ok c)
    (ha : a ∈ as) : ∃ b' c', g b' a = .ok c' := by
  induction as generalizing b with
  | nil => cases ha
  | cons a' as ih =>
    rw [foldlM_cons] at h
    cases hg : g b a' with
    | error stop =>
      rw [hg] at h
      cases h
    | ok b' =>
      rw [hg] at h
      rcases mem_cons.mp ha with rfl | ha
      · exact ⟨b, b', hg⟩
      · exact ih h ha

/-! ### The entries by name -/

variable {gen gen' : Except σ (List ε)} {es : List ε}

/-- The program ends as `gen` does: the entries of `gen` come behind those of the pool, and a pool
that has no room for all of them ends full. -/
def Appends (cap : Nat) (gen : Except σ (List ε)) (prog : List ε → Except σ (List ε)) : Prop :=
  ∀ xs,
    match gen with
    | .error stop => prog xs = .error stop
    | .ok es => ∃ ys, prog xs = .ok ys ∧
        ys.length = max xs.length (min cap (xs.length + es.length)) ∧
        (xs.length + es.length ≤ cap → ys = xs ++ es)

theorem Appends.emits (h : Appends cap gen prog) (hstop : ∀ stop, gen = .error stop → Fails stop)
    (hP : ∀ es, gen = .ok es → P es) : Emits cap Fails P prog := by
  intro xs
  have hrun := h xs
  cases gen with
  | error stop =>
    have herr : prog xs = .error stop := hrun
    rw [herr]
    refine ⟨fun stop' heq => ?_, fun ys hys => by cases hys⟩
    cases heq
    exact hstop stop rfl
  | ok es =>
    obtain ⟨ys, hys, hlen, hroom⟩ := hrun
    rw [hys]
    refine ⟨fun stop heq => (by cases heq), fun ys' hys' hcap => ?_⟩
    obtain rfl := Except.ok.inj hys'
    exact ⟨es, hroom (by omega), hP es rfl⟩

theorem Appends.error {stop : σ} : Appends cap (.error stop) fun _ : List ε => .error stop :=
  fun _ => rfl

theorem Appends.nil : Appends cap (.ok []) fun xs => (.ok xs : Except σ (List ε)) := by
  intro xs
  refine ⟨xs, rfl, ?_, fun _ => (append_nil xs).symm⟩
  rw [length_nil]
  omega

/-- One program after the other. -/
theorem Appends.bind (h : Appends cap gen prog) (h' : Appends cap gen' prog') :
    Appends cap (gen.bind fun as => gen'.bind fun bs => .ok (as ++ bs))
      fun xs => (prog xs).bind prog' := by
  intro xs
  cases gen with
  | error stop =>
    have hprog : prog xs = .error stop := h xs
    change (prog xs).bind prog' = .error stop
    rw [hprog]
    rfl
  | ok as =>
    obtain ⟨ys, hys, hlen, hroom⟩ := h xs
    have hnext := h' ys
    cases gen' with
    | error stop =>
      change (prog xs).bind prog' = .error stop
      rw [hys]
      exact hnext
    | ok bs =>
      obtain ⟨zs, hzs, hlen', hroom'⟩ := hnext
      refine ⟨zs, ?_, ?_, fun hcap => ?_⟩
      · dsimp only
        rw [hys]
        exact hzs
      · rw [length_append]
        omega
      · rw [length_append] at hcap
        rw [hroom' (by omega), hroom (by omega), append_assoc]

/-- The entries of one round after the other. -/
def gather (g : α → Except σ (List ε)) : List α → Except σ (List ε)
  | [] => .ok []
  | a :: as => (g a).bind fun es => (gather g as).bind fun es' => .ok (es ++ es')

/-- Rounds that all have entries have them together. -/
theorem gather_ok (g : α → Except σ (List ε)) (size : α → Nat)
    (h : ∀ a ∈ as, ∃ es, g a = .ok es ∧ es.length = size a) :
    ∃ es, gather g as = .ok es ∧ es.length = (as.map size).sum := by
  induction as with
  | nil => exact ⟨[], rfl, rfl⟩
  | cons a as ih =>
    obtain ⟨es, hes, hlen⟩ := h a mem_cons_self
    obtain ⟨es', hes', hlen'⟩ := ih fun b hb => h b (mem_cons_of_mem a hb)
    refine ⟨es ++ es', ?_, ?_⟩
    · rw [gather, hes, hes']
      rfl
    · rw [length_append, hlen, hlen', map_cons, sum_cons]

/-- Every entry comes from a round. -/
theorem mem_gather {g : α → Except σ (List ε)} {e : ε} (h : gather g as = .ok es) (he : e ∈ es) :
    ∃ a ∈ as, ∃ es', g a = .ok es' ∧ e ∈ es' := by
  induction as generalizing es with
  | nil =>
    cases h
    cases he
  | cons a as ih =>
    rw [gather] at h
    cases hg : g a with
    | error stop =>
      rw [hg] at h
      cases h
    | ok es₁ =>
      cases hrest : gather g as with
      | error stop =>
        rw [hg, hrest] at h
        cases h
      | ok es₂ =>
        rw [hg, hrest] at h
        cases h
        rcases mem_append.mp he with he | he
        · exact ⟨a, mem_cons_self, es₁, hg, he⟩
        · obtain ⟨a', ha', hround⟩ := ih hrest he
          exact ⟨a', mem_cons_of_mem a ha', hround⟩

/-- A program that has its entries comes to its end. -/
theorem Appends.ok (h : Appends cap (.ok es) prog) (xs : List ε) : ∃ ys, prog xs = .ok ys := by
  obtain ⟨ys, hys, -⟩ := h xs
  exact ⟨ys, hys⟩

theorem gather_map {β : Type*} (g : α → Except σ (List ε)) (f : β → α) (bs : List β) :
    gather g (bs.map f) = gather (fun b => g (f b)) bs := by
  induction bs with
  | nil => rfl
  | cons b bs ih => rw [map_cons, gather, gather, ih]

/-- A loop appends what its rounds append. -/
theorem Appends.foldlM {g : α → Except σ (List ε)}
    (h : ∀ a ∈ as, Appends cap (g a) fun xs => f xs a) :
    Appends cap (gather g as) fun xs => as.foldlM f xs := by
  induction as with
  | nil => exact Appends.nil
  | cons a as ih =>
    exact (h a mem_cons_self).bind (ih fun b hb => h b (mem_cons_of_mem a hb))

/-- What a program leaves in a pool that was empty. -/
theorem Appends.of_nil {ys : List ε} (h : Appends cap gen prog) (hys : prog [] = .ok ys)
    (hcap : ys.length < cap) : gen = .ok ys := by
  have hrun := h []
  cases gen with
  | error stop =>
    have hstop : prog [] = .error stop := hrun
    rw [hys] at hstop
    cases hstop
  | ok es =>
    obtain ⟨ys', hys', hlen, hroom⟩ := hrun
    rw [hys] at hys'
    obtain rfl := Except.ok.inj hys'
    rw [length_nil, Nat.zero_add] at hlen hroom
    rw [hroom (by omega), nil_append]

/-- Entries that do not fit fill the pool. -/
theorem Appends.full (h : Appends cap (.ok es) prog) (hcap : cap ≤ es.length) :
    ∃ ys, prog [] = .ok ys ∧ ys.length = cap := by
  obtain ⟨ys, hys, hlen, -⟩ := h []
  refine ⟨ys, hys, ?_⟩
  rw [length_nil] at hlen
  omega

end OmapHal.Core
