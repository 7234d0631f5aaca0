import EBank.BFLogger

namespace EBank.BFLogger

open BFLoggerInstance

/-- A name that is not taken apart: neither a path, nor a name of log4j with ancestors, nor one of an
environment file. -/
structure IsPlain (name : String) : Prop where
  slash : '/' ∉ name.toList
  dot : '.' ∉ name.toList
  underscore : '_' ∉ name.toList

theorem normalize_eq {l : List Char} (h : '/' ∉ l) : BFLoggerInstance.normalize l = l := by
  induction l with
  | nil => rfl
  | cons c l ih =>
    rw [List.mem_cons, not_or] at h
    rw [BFLoggerInstance.normalize, if_neg (fun hc => h.1 hc.1.symm), ih h.2]

def logs : List Char := ['.', '/', 'l', 'o', 'g', 's', '/']

def logSuffix : List Char := ['.', 'l', 'o', 'g']

theorem toList_getLogFile {n : String} (h : '/' ∉ n.toList) :
    (getLogFile n).toList = logs ++ (n.toList ++ logSuffix) := by
  have hchild : (n ++ ".log").toList = n.toList ++ logSuffix := String.toList_append
  have hslash : '/' ∉ n.toList ++ logSuffix := by
    rw [List.mem_append, not_or]
    exact ⟨h, by decide⟩
  have hhead : ¬ (n.toList ++ logSuffix).head? = some '/' := fun hhead => hslash (List.mem_of_mem_head? hhead)
  have hfile : getLogFile n = "./logs" ++ "/" ++ String.ofList (n.toList ++ logSuffix) := by
    rw [getLogFile, hchild, normalize_eq hslash]
    exact if_neg hhead
  rw [hfile]
  simp [logs]

theorem getLogFile_inj {m n : String} (hm : '/' ∉ m.toList) (hn : '/' ∉ n.toList)
    (h : getLogFile m = getLogFile n) : m = n := by
  have hlist := congrArg String.toList h
  rw [toList_getLogFile hm, toList_getLogFile hn] at hlist
  exact String.toList_inj.mp (List.append_cancel_right (List.append_cancel_left hlist))

def envSuffix : List Char := ['_', 'e', 'n', 'v'] ++ logSuffix

theorem replaceLog_cons (c₁ c₂ c₃ c₄ : Char) (rest : List Char) : replaceLog (c₁ :: c₂ :: c₃ :: c₄ :: rest) =
    if [c₁, c₂, c₃, c₄] = logSuffix then envSuffix ++ replaceLog rest
    else c₁ :: replaceLog (c₂ :: c₃ :: c₄ :: rest) := rfl

theorem replaceLog_suffix (l : List Char) (h : logSuffix <:+ l) : envSuffix <:+ replaceLog l := by
  induction l using replaceLog.induct with
  | case1 c₁ c₂ c₃ c₄ rest htext ih =>
    have hlog : [c₁, c₂, c₃, c₄] = logSuffix := htext
    rw [replaceLog_cons, if_pos hlog]
    have hall : c₁ :: c₂ :: c₃ :: c₄ :: rest = logSuffix ++ rest := congrArg (· ++ rest) hlog
    rw [hall] at h
    by_cases hrest : logSuffix <:+ rest
    · exact (ih hrest).trans (List.suffix_append _ _)
    · simp only [logSuffix, List.cons_append, List.nil_append] at h hrest
      simp only [List.suffix_cons_iff, hrest, or_false] at h
      rcases h with h | h | h | h
      · obtain rfl : rest = [] := by simpa using h.symm
        exact List.suffix_refl _
      · simp at h
      · simp at h
      · simp at h
  | case2 c₁ c₂ c₃ c₄ rest htext ih =>
    have hother : ¬ [c₁, c₂, c₃, c₄] = logSuffix := htext
    rw [replaceLog_cons, if_neg hother]
    rcases List.suffix_cons_iff.mp h with hall | hrest
    · exact absurd (congrArg (List.take 4) hall).symm hother
    · exact (ih hrest).trans (List.suffix_cons _ _)
  | case3 short hshort =>
    have hlength : 4 ≤ short.length := h.length_le
    match short, hshort, hlength with
    | c₁ :: c₂ :: c₃ :: c₄ :: rest, hshort, _ => exact absurd rfl (hshort c₁ c₂ c₃ c₄ rest)

theorem envLogName_ne {m n : String} (hm : IsPlain m) (hn : IsPlain n) : envLogName m ≠ getLogFile n := by
  intro h
  have htext : replaceLog (getLogFile m).toList = (getLogFile n).toList :=
    String.toList_ofList.symm.trans (congrArg String.toList h)
  rw [toList_getLogFile hm.slash, toList_getLogFile hn.slash, ← List.append_assoc,
    ← List.append_assoc] at htext
  have hsuffix := replaceLog_suffix _ (List.suffix_append (logs ++ m.toList) logSuffix)
  rw [htext] at hsuffix
  have hmem := hsuffix.subset (show '_' ∈ envSuffix by decide)
  rw [List.mem_append, List.mem_append] at hmem
  rcases hmem with (hmem | hmem) | hmem
  · exact absurd hmem (by decide)
  · exact hn.underscore hmem
  · exact absurd hmem (by decide)

def asyncThread (n : ℕ) : String := "AsynchThread-" ++ toString (n + 1)

theorem toList_asyncThread (n : ℕ) :
    (asyncThread n).toList = "AsynchThread-".toList ++ Nat.toDigits 10 (n + 1) :=
  String.toList_append.trans (congrArg _ Nat.toList_repr)

theorem asyncThread_injective : Function.Injective asyncThread := by
  intro m n h
  have hlist := congrArg String.toList h
  rw [toList_asyncThread, toList_asyncThread] at hlist
  have hdigits := congrArg (fun l => Nat.ofDigitChars 10 l 0) (List.append_cancel_left hlist)
  simp only [Nat.ofDigitChars_ten_toDigits] at hdigits
  omega

theorem notMem_asyncThread {c : Char} (hletters : c ∉ "AsynchThread-".toList) (hdigit : c.isDigit = false)
    (n : ℕ) : c ∉ (asyncThread n).toList := by
  rw [toList_asyncThread, List.mem_append, not_or]
  refine ⟨hletters, ?_⟩
  intro hmem
  have hc := Nat.isDigit_of_mem_toDigits (by decide) (by decide) hmem
  rw [hdigit] at hc
  cases hc

theorem asyncThread_isPlain (n : ℕ) : IsPlain (asyncThread n) := by
  constructor <;> exact notMem_asyncThread (by decide) (by decide) n

theorem IsPlain.unrelated {Λ F : Type} [DecidableEq F] (L : Log4j Λ F) {m : String} (h : IsPlain m)
    (n : String) : n ∉ L.ancestors m := fun hancestor =>
  h.dot (((L.mem_ancestors_iff n m).mp hancestor).subset (List.mem_append_right _ List.mem_cons_self))

end EBank.BFLogger
