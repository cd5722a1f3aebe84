import Mathlib.Computability.RegularExpressions
import MachineFacts.Proofs.Imports

/-! Names of imported profiles as the matches of a regular expression, taken from left to right and
each as long as it goes. The path in front of a name has no border, so the scan may go on behind a
path without a name where a matcher would try one character further on. -/

namespace MachineFacts

structure Expression where
  lead : RegularExpression Char
  group : RegularExpression Char

structure Match where
  before : Text
  lead : Text
  group : Text
  rest : Text

def Match.text (m : Match) : Text := m.before ++ (m.lead ++ (m.group ++ m.rest))

/-- The expression matches in the text, at any place and with any length. -/
structure Match.In (m : Match) (e : Expression) (t : Text) : Prop where
  split : t = m.text
  lead : e.lead.rmatch m.lead = true
  group : e.group.rmatch m.group = true

/-- The leftmost match, and the longest one there. -/
structure Match.Next (m : Match) (e : Expression) (t : Text) : Prop where
  found : m.In e t
  leftmost : ∀ o : Match, o.In e t → m.before.length ≤ o.before.length
  greedy : ∀ o : Match, o.In e t → o.before = m.before → m.rest.length ≤ o.rest.length

/-- The groups of all matches that do not overlap, from left to right. -/
inductive GlobalMatch (e : Expression) : Text → List Text → Prop where
  | done {t : Text} : (∀ m : Match, ¬ m.In e t) → GlobalMatch e t []
  | next {t : Text} {m : Match} {groups : List Text} :
      m.Next e t → GlobalMatch e m.rest groups → GlobalMatch e t (m.group :: groups)

def exactly (t : Text) : RegularExpression Char := t.foldr (fun c r => .char c * r) 1

def oneOf (cs : List Char) : RegularExpression Char := cs.foldr (fun c r => .char c + r) 0

def profileAlphabet : List Char :=
  "ABCDEFGHIJKLMNOPQRSTUVWXYZabcdefghijklmnopqrstuvwxyz0123456789_-".toList

def profileReference : Expression :=
  ⟨exactly profilePath, oneOf profileAlphabet * (oneOf profileAlphabet).star⟩

theorem exactly_rmatch_iff {t w : Text} : (exactly t).rmatch w = true ↔ w = t := by
  induction t generalizing w with
  | nil => exact RegularExpression.one_rmatch_iff w
  | cons c t ih =>
    have hcons : exactly (c :: t) = .char c * exactly t := rfl
    rw [hcons, RegularExpression.mul_rmatch_iff]
    constructor
    · rintro ⟨u, v, rfl, hu, hv⟩
      rw [(RegularExpression.char_rmatch_iff c u).mp hu, ih.mp hv]
      rfl
    · rintro rfl
      exact ⟨[c], t, rfl, (RegularExpression.char_rmatch_iff c [c]).mpr rfl, ih.mpr rfl⟩

theorem oneOf_rmatch_iff {cs : List Char} {w : Text} :
    (oneOf cs).rmatch w = true ↔ ∃ c ∈ cs, w = [c] := by
  induction cs with
  | nil =>
    have hzero : (oneOf []).rmatch w = false := RegularExpression.zero_rmatch w
    simp [hzero]
  | cons c cs ih =>
    have hcons : oneOf (c :: cs) = .char c + oneOf cs := rfl
    rw [hcons, RegularExpression.add_rmatch_iff, RegularExpression.char_rmatch_iff, ih]
    simp

theorem oneOf_star_rmatch_iff {cs : List Char} {w : Text} :
    (oneOf cs).star.rmatch w = true ↔ ∀ c ∈ w, c ∈ cs := by
  rw [RegularExpression.star_rmatch_iff]
  constructor
  · rintro ⟨parts, rfl, hparts⟩ c hc
    obtain ⟨part, hpart, hmem⟩ := List.mem_flatten.mp hc
    obtain ⟨d, hd, rfl⟩ := oneOf_rmatch_iff.mp (hparts part hpart).2
    rwa [List.mem_singleton.mp hmem]
  · intro hall
    refine ⟨w.map fun c => [c], (List.flatMap_singleton' w).symm, fun part hpart => ?_⟩
    obtain ⟨c, hc, rfl⟩ := List.mem_map.mp hpart
    exact ⟨by simp, oneOf_rmatch_iff.mpr ⟨c, hall c hc, rfl⟩⟩

theorem mem_profileAlphabet_iff {c : Char} : c ∈ profileAlphabet ↔ isProfileChar c = true := by
  constructor
  · have hall : ∀ c ∈ profileAlphabet, isProfileChar c = true := by decide +kernel
    exact hall c
  · intro h
    have hname : isNameChar c = true := by
      simp only [isProfileChar, Bool.or_eq_true] at h
      simp only [isNameChar, Bool.or_eq_true]
      tauto
    have hsmall : ∀ n < 123, isNameChar (Char.ofNat n) = true →
        isProfileChar (Char.ofNat n) = true → Char.ofNat n ∈ profileAlphabet := by
      decide +kernel
    exact of_isNameChar (p := fun c => isProfileChar c = true → c ∈ profileAlphabet) hsmall hname h

theorem profileName_rmatch_iff {w : Text} :
    profileReference.group.rmatch w = true ↔ w ≠ [] ∧ ∀ c ∈ w, isProfileChar c = true := by
  have hgroup : profileReference.group = oneOf profileAlphabet * (oneOf profileAlphabet).star := rfl
  rw [hgroup, RegularExpression.mul_rmatch_iff]
  constructor
  · rintro ⟨u, v, rfl, hu, hv⟩
    obtain ⟨c, hc, rfl⟩ := oneOf_rmatch_iff.mp hu
    have hrest := oneOf_star_rmatch_iff.mp hv
    refine ⟨by simp, fun d hd => mem_profileAlphabet_iff.mp ?_⟩
    rcases List.mem_cons.mp hd with rfl | hd
    · exact hc
    · exact hrest d hd
  · rintro ⟨hne, hall⟩
    obtain ⟨c, rest, rfl⟩ := List.exists_cons_of_ne_nil hne
    have hmem : ∀ d ∈ c :: rest, d ∈ profileAlphabet := fun d hd =>
      mem_profileAlphabet_iff.mpr (hall d hd)
    refine ⟨[c], rest, rfl, oneOf_rmatch_iff.mpr ⟨c, hmem c List.mem_cons_self, rfl⟩, ?_⟩
    exact oneOf_star_rmatch_iff.mpr fun d hd => hmem d (List.mem_cons_of_mem c hd)

theorem Match.in_profileReference_iff {m : Match} {t : Text} :
    m.In profileReference t ↔
      t = m.before ++ (profilePath ++ (m.group ++ m.rest)) ∧ m.lead = profilePath ∧
        m.group ≠ [] ∧ ∀ c ∈ m.group, isProfileChar c = true := by
  constructor
  · rintro ⟨hsplit, hlead, hgroup⟩
    have hpath : m.lead = profilePath := exactly_rmatch_iff.mp hlead
    exact ⟨by rw [hsplit, Match.text, hpath], hpath, profileName_rmatch_iff.mp hgroup⟩
  · rintro ⟨hsplit, hpath, hgroup⟩
    exact ⟨by rw [hsplit, Match.text, hpath], exactly_rmatch_iff.mpr hpath,
      profileName_rmatch_iff.mpr hgroup⟩

theorem Match.In.occurs_profilePath {m : Match} {t : Text} (h : m.In profileReference t) :
    occurs profilePath t = true := by
  obtain ⟨hsplit, -⟩ := Match.in_profileReference_iff.mp h
  exact occurs_iff.mpr ⟨m.before, m.group ++ m.rest, by rw [hsplit, List.append_assoc]⟩

def Match.behind (skipped : Text) (m : Match) : Match := { m with before := skipped ++ m.before }

theorem Match.behind_in_iff {e : Expression} {m : Match} {skipped t : Text} :
    (m.behind skipped).In e (skipped ++ t) ↔ m.In e t := by
  have hsplit : skipped ++ t = (m.behind skipped).text ↔ t = m.text := by
    have htext : (m.behind skipped).text = skipped ++ m.text := by simp [Match.behind, Match.text]
    rw [htext, List.append_cancel_left_eq]
  constructor
  · rintro ⟨ht, hlead, hgroup⟩
    exact ⟨hsplit.mp ht, hlead, hgroup⟩
  · rintro ⟨ht, hlead, hgroup⟩
    exact ⟨hsplit.mpr ht, hlead, hgroup⟩

theorem Match.In.exists_behind {e : Expression} {m : Match} {skipped t : Text}
    (h : m.In e (skipped ++ t)) (hle : skipped.length ≤ m.before.length) :
    ∃ o : Match, m = o.behind skipped ∧ o.In e t := by
  have hlead : skipped <+: m.before :=
    List.prefix_of_prefix_length_le ⟨t, rfl⟩ ⟨_, h.split.symm⟩ hle
  obtain ⟨before, hbefore⟩ := hlead
  have hm : m = Match.behind skipped { m with before := before } := by
    rw [Match.behind, hbefore]
  exact ⟨_, hm, Match.behind_in_iff.mp (hm ▸ h)⟩

section

variable {e : Expression} {skipped t : Text}
  (h : ∀ m : Match, m.In e (skipped ++ t) → skipped.length ≤ m.before.length)

include h

theorem Match.behind_next_iff {m : Match} :
    (m.behind skipped).Next e (skipped ++ t) ↔ m.Next e t := by
  have hlength : ∀ o : Match, (o.behind skipped).before.length = skipped.length + o.before.length :=
    fun o => List.length_append
  constructor
  · rintro ⟨hfound, hleft, hgreedy⟩
    refine ⟨Match.behind_in_iff.mp hfound, fun o ho => ?_, fun o ho hsame => ?_⟩
    · have hle := hleft _ (Match.behind_in_iff.mpr ho)
      rw [hlength, hlength] at hle
      omega
    · exact hgreedy (o.behind skipped) (Match.behind_in_iff.mpr ho)
        (congrArg (skipped ++ ·) hsame)
  · rintro ⟨hfound, hleft, hgreedy⟩
    refine ⟨Match.behind_in_iff.mpr hfound, fun o ho => ?_, fun o ho hsame => ?_⟩
    · obtain ⟨o, rfl, hin⟩ := ho.exists_behind (h o ho)
      have hle := hleft o hin
      rw [hlength, hlength]
      omega
    · obtain ⟨o, rfl, hin⟩ := ho.exists_behind (h o ho)
      exact hgreedy o hin (List.append_cancel_left hsame)

theorem globalMatch_append_iff {groups : List Text} :
    GlobalMatch e (skipped ++ t) groups ↔ GlobalMatch e t groups := by
  constructor
  · intro hg
    cases hg with
    | done hnone => exact .done fun m hm => hnone _ (Match.behind_in_iff.mpr hm)
    | next hnext hrest =>
      obtain ⟨m, rfl, -⟩ := hnext.found.exists_behind (h _ hnext.found)
      exact .next (m := m) ((Match.behind_next_iff h).mp hnext) hrest
  · intro hg
    cases hg with
    | done hnone =>
      refine .done fun m hm => ?_
      obtain ⟨o, -, ho⟩ := hm.exists_behind (h m hm)
      exact hnone o ho
    | @next _ m _ hnext hrest =>
      exact .next (m := m.behind skipped) ((Match.behind_next_iff h).mpr hnext) hrest

end

theorem borderless_profilePath : Borderless profilePath := by decide +kernel

theorem Match.length_le_of_unnamed {x y : Text} (hy : ∀ c ∈ y.head?, isProfileChar c = false)
    (hx : ∀ m : Match, m.In profileReference (x ++ (profilePath ++ y)) →
      x.length ≤ m.before.length) {m : Match}
    (hm : m.In profileReference (x ++ (profilePath ++ y))) :
    (x ++ profilePath).length ≤ m.before.length := by
  obtain ⟨hsplit, -, hne, hgroup⟩ := Match.in_profileReference_iff.mp hm
  have hle := hx m hm
  rw [List.length_append]
  by_cases heq : x.length = m.before.length
  · obtain ⟨-, hrest⟩ := List.append_inj hsplit heq
    have hname : y = m.group ++ m.rest := List.append_cancel_left hrest
    obtain ⟨c, more, hcons⟩ := List.exists_cons_of_ne_nil hne
    have hc := hgroup c (by simp [hcons])
    rw [hy c (by simp [hname, hcons])] at hc
    cases hc
  · -- a match that starts inside the path would make one of its ends one of its beginnings
    exact borderless_profilePath.apart hsplit (by omega)

theorem globalMatch_of_unnamed {x y : Text} (hy : ∀ c ∈ y.head?, isProfileChar c = false)
    (hx : ∀ m : Match, m.In profileReference (x ++ (profilePath ++ y)) →
      x.length ≤ m.before.length) {groups : List Text} :
    GlobalMatch profileReference (x ++ (profilePath ++ y)) groups ↔
      GlobalMatch profileReference y groups := by
  rw [← List.append_assoc]
  refine globalMatch_append_iff fun m hm => ?_
  rw [List.append_assoc] at hm
  exact Match.length_le_of_unnamed hy hx hm

theorem Match.next_of_first {x rest : Text}
    (hfirst : ∀ y u, x ++ (profilePath ++ rest) = y ++ (profilePath ++ u) → x.length ≤ y.length)
    (hname : rest.takeWhile isProfileChar ≠ []) :
    Match.Next ⟨x, profilePath, rest.takeWhile isProfileChar, rest.dropWhile isProfileChar⟩
      profileReference (x ++ (profilePath ++ rest)) := by
  refine ⟨?_, fun o ho => ?_, fun o ho hsame => ?_⟩
  · refine Match.in_profileReference_iff.mpr ⟨?_, rfl, hname, fun c hc => ?_⟩
    · rw [List.takeWhile_append_dropWhile]
    · exact List.mem_takeWhile_imp hc
  · obtain ⟨hsplit, -⟩ := Match.in_profileReference_iff.mp ho
    exact hfirst o.before _ hsplit
  · obtain ⟨hsplit, -, -, hgroup⟩ := Match.in_profileReference_iff.mp ho
    have hrest : rest = o.group ++ o.rest := by
      rw [hsame] at hsplit
      exact List.append_cancel_left (List.append_cancel_left hsplit)
    rw [hrest, List.dropWhile_append_of_pos hgroup]
    exact (List.dropWhile_suffix isProfileChar).length_le

theorem unnamed_of_takeWhile_eq_nil {t : Text} (h : t.takeWhile isProfileChar = []) :
    t.dropWhile isProfileChar = t ∧ ∀ c ∈ t.head?, isProfileChar c = false := by
  cases t with
  | nil => simp
  | cons c t =>
    have hc : isProfileChar c = false := by
      cases hp : isProfileChar c with
      | false => rfl
      | true => simp [hp] at h
    simp [hc]

theorem globalMatch_profileNames (t : Text) :
    GlobalMatch profileReference t (profileNames t) := by
  -- on what is left behind a path and its name, which may be no name at all
  induction hlen : t.length using Nat.strongRecOn generalizing t with
  | _ n ih =>
    subst hlen
    rw [profileNames_eq]
    cases hb : behind profilePath t with
    | none =>
      refine .done fun m hm => ?_
      have hoccurs := hm.occurs_profilePath
      simp [occurs, hb] at hoccurs
    | some rest =>
      have hlt := behind_length hb
      have hpos : 0 < profilePath.length := by decide
      obtain ⟨x, rfl, hfirst⟩ := behind_eq_some_iff.mp hb
      dsimp only
      have hdrop : (rest.dropWhile isProfileChar).length ≤ rest.length :=
        (List.dropWhile_suffix isProfileChar).length_le
      have hrest := ih (rest.dropWhile isProfileChar).length (by omega) _ rfl
      by_cases hname : rest.takeWhile isProfileChar = []
      · obtain ⟨hsame, hhead⟩ := unnamed_of_takeWhile_eq_nil hname
        rw [hsame] at hrest
        rw [if_pos hname, List.nil_append, hsame]
        refine (globalMatch_of_unnamed hhead fun m hm => ?_).mpr hrest
        obtain ⟨hsplit, -⟩ := Match.in_profileReference_iff.mp hm
        exact hfirst m.before _ hsplit
      · rw [if_neg hname]
        exact .next (Match.next_of_first hfirst hname) hrest

theorem Match.next_unique {m o : Match} {t : Text} (hm : m.Next profileReference t)
    (ho : o.Next profileReference t) : m = o := by
  obtain ⟨hsplit, hlead, -⟩ := Match.in_profileReference_iff.mp hm.found
  obtain ⟨hother, hpath, -⟩ := Match.in_profileReference_iff.mp ho.found
  have hlen := Nat.le_antisymm (hm.leftmost o ho.found) (ho.leftmost m hm.found)
  obtain ⟨hbefore, htail⟩ := List.append_inj (hsplit.symm.trans hother) hlen
  have hshort := Nat.le_antisymm (hm.greedy o ho.found hbefore.symm)
    (ho.greedy m hm.found hbefore)
  obtain ⟨hgroup, hrest⟩ := List.append_inj' (List.append_cancel_left htail) hshort
  cases m
  cases o
  simp_all

theorem GlobalMatch.unique {t : Text} {groups others : List Text}
    (h : GlobalMatch profileReference t groups) (ho : GlobalMatch profileReference t others) :
    groups = others := by
  induction h generalizing others with
  | done hnone =>
    cases ho with
    | done => rfl
    | next hnext => exact absurd hnext.found (hnone _)
  | next hnext _ ih =>
    cases ho with
    | done hnone => exact absurd hnext.found (hnone _)
    | next hother hrest =>
      obtain rfl := Match.next_unique hnext hother
      rw [ih hrest]

theorem profileNames_eq_iff {t : Text} {names : List Text} :
    profileNames t = names ↔ GlobalMatch profileReference t names := by
  constructor
  · rintro rfl
    exact globalMatch_profileNames t
  · exact (globalMatch_profileNames t).unique

/-- The profiles are the groups of all matches in the first list of imports. A path without a name
hides no later reference: where no match starts in front of it, they are the matches behind it. -/
theorem importedProfiles_globalMatch (t : Text) :
    (listBlock "imports" t = none → importedProfiles t = []) ∧
    ∀ imports, listBlock "imports" t = some imports →
      (∀ names, importedProfiles t = names ↔ GlobalMatch profileReference imports names) ∧
      ∀ x y, imports = x ++ (profilePath ++ y) → (∀ c ∈ y.head?, isProfileChar c = false) →
        (∀ m : Match, m.In profileReference imports → x.length ≤ m.before.length) →
        ∀ names, importedProfiles t = names ↔ GlobalMatch profileReference y names := by
  refine ⟨fun hnone => ?_, fun imports hsome => ?_⟩
  · rw [importedProfiles, hnone]
  · have hread : importedProfiles t = profileNames imports := by rw [importedProfiles, hsome]
    rw [hread]
    refine ⟨fun names => profileNames_eq_iff, ?_⟩
    rintro x y rfl hy hx names
    rw [profileNames_eq_iff, globalMatch_of_unnamed hy hx]

/-- References that touch, that go on inside a name, that break off, or that stand beside characters
of several bytes. -/
def referencesText : Text :=
  "/inputs.nixos-hardware.nixosModules.inputs.nixos-hardware.nixosModules.dell ".toList ++
    "éinputs.nixos-hardware.nixosModules.common-pcé inputs.nixos-hardware.nixosModule ".toList ++
    "(inputs.nixos-hardware.nixosModules.common-pc)".toList

theorem importedProfiles_globalMatch_unnamed :
    listBlock "imports" ("imports = [" ++ (profilePath ++ referencesText) ++ "];") =
      some (profilePath ++ referencesText) ∧
    GlobalMatch profileReference (profilePath ++ referencesText)
      ["inputs".toList, "common-pc".toList, "common-pc".toList] ∧
    GlobalMatch profileReference referencesText
      ["inputs".toList, "common-pc".toList, "common-pc".toList] := by
  have hlist : listBlock "imports" ("imports = [" ++ (profilePath ++ referencesText) ++ "];") =
      some (profilePath ++ referencesText) := by decide +kernel
  have hread : importedProfiles ("imports = [" ++ (profilePath ++ referencesText) ++ "];") =
      ["inputs".toList, "common-pc".toList, "common-pc".toList] := by decide +kernel
  obtain ⟨hall, hbehind⟩ := (importedProfiles_globalMatch _).2 _ hlist
  have hslash : referencesText.head? = some '/' := by decide +kernel
  have hhead : ∀ c ∈ referencesText.head?, isProfileChar c = false := by
    intro c hc
    obtain rfl : '/' = c := Option.some.inj (hslash.symm.trans hc)
    decide
  exact ⟨hlist, (hall _).mp hread, (hbehind [] referencesText rfl hhead (by simp) _).mp hread⟩

end MachineFacts
