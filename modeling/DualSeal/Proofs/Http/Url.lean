import DualSeal.Http.Url
import Mathlib.Data.List.Basic
import Mathlib.Data.List.TakeWhile

/-!
# URLs of a server

A client puts the path of what it wants behind the URL of its server. Where the path is made of
plain segments, that spells the server's host and the very path: nothing in it is resolved, escaped
or taken for something else (`callable_urlOn`), and a server finds the path in the target again
(`pathOf_plainPath`).
-/

namespace DualSeal.Http

/-! ## Plain paths -/

/-- A character that a path holds as it is, and that separates nothing. -/
def isPlainChar (c : Char) : Bool := isPathChar c && c ≠ '/' && c ≠ '\\'

theorem isPathChar_of_isPlainChar {c : Char} (h : isPlainChar c = true) : isPathChar c = true := by
  rw [isPlainChar, Bool.and_eq_true, Bool.and_eq_true] at h
  exact h.1.1

/-- A segment of plain characters that stands for no directory. -/
structure IsPlainSegment (segment : List Char) : Prop where
  plain : ∀ c ∈ segment, isPlainChar c = true
  isDot_eq : isDot segment = false
  isDoubleDot_eq : isDoubleDot segment = false

def plainPath (segments : List (List Char)) : List Char := segments.flatMap ('/' :: ·)

theorem isPlainSegment_cons {c : Char} {rest : List Char}
    (hplain : ∀ d ∈ c :: rest, isPlainChar d = true) (hpoint : c.toLower ≠ '.')
    (hescape : c.toLower ≠ '%') : IsPlainSegment (c :: rest) where
  plain := hplain
  isDot_eq := by
    rw [isDot, List.map_cons]
    simp [hpoint, hescape]
  isDoubleDot_eq := by
    rw [isDoubleDot, List.map_cons, Bool.eq_false_iff, ne_eq, List.contains_iff_mem]
    intro hmem
    have hlists : ∀ text ∈ ["..", ".%2e", "%2e.", "%2e%2e"],
        text.toList.head? = some '.' ∨ text.toList.head? = some '%' := by decide
    have hhead := hlists _ hmem
    rw [String.toList_ofList, List.head?_cons, Option.some_inj, Option.some_inj] at hhead
    exact hhead.elim hpoint hescape

variable {segments : List (List Char)}

theorem isPlainChar_of_mem_plainPath (hsegments : ∀ s ∈ segments, IsPlainSegment s) {c : Char}
    (hc : c ∈ plainPath segments) (hslash : c ≠ '/') : isPlainChar c = true := by
  obtain ⟨segment, hsegment, hc⟩ := List.mem_flatMap.mp hc
  exact (hsegments segment hsegment).plain c ((List.mem_cons.mp hc).resolve_left hslash)

theorem ne_of_mem_plainPath (hsegments : ∀ s ∈ segments, IsPlainSegment s) {c d : Char}
    (hc : c ∈ plainPath segments) (hslash : d ≠ '/') (hplain : ¬isPlainChar d = true) : c ≠ d := by
  rintro rfl
  exact hplain (isPlainChar_of_mem_plainPath hsegments hc hslash)

theorem lt_toNat_of_mem_plainPath (hsegments : ∀ s ∈ segments, IsPlainSegment s) {c : Char}
    (hc : c ∈ plainPath segments) : 0x20 < c.toNat := by
  by_cases hslash : c = '/'
  · rw [hslash]
    decide
  · have hpath := isPathChar_of_isPlainChar (isPlainChar_of_mem_plainPath hsegments hc hslash)
    rw [isPathChar, isGraphic, Bool.and_eq_true, Bool.and_eq_true] at hpath
    exact of_decide_eq_true hpath.1.1

theorem splitOn_append_plainPath (hsegments : ∀ s ∈ segments, IsPlainSegment s)
    (front : List Char) :
    (front ++ plainPath segments).splitOn '/' = front.splitOn '/' ++ segments := by
  induction segments generalizing front with
  | nil => rw [plainPath, List.flatMap_nil, List.append_nil, List.append_nil]
  | cons segment segments ih =>
    obtain ⟨hsegment, hsegments⟩ := List.forall_mem_cons.mp hsegments
    have hwhole : segment.splitOn '/' = [segment] :=
      List.splitOn_eq_singleton fun hmem ↦ absurd (hsegment.plain _ hmem) (by decide)
    rw [plainPath, List.flatMap_cons, List.cons_append, List.splitOn_append_cons_self, ← plainPath,
      ih hsegments, hwhole, List.singleton_append]

theorem resolve_of_isPlainSegment (hsegments : ∀ s ∈ segments, IsPlainSegment s)
    (passed : List (List Char)) : resolve passed segments = passed.reverse ++ segments := by
  induction segments generalizing passed with
  | nil => rw [resolve, List.append_nil]
  | cons segment segments ih =>
    obtain ⟨hsegment, hsegments⟩ := List.forall_mem_cons.mp hsegments
    rw [resolve, hsegment.isDoubleDot_eq, hsegment.isDot_eq, if_neg Bool.false_ne_true,
      if_neg Bool.false_ne_true, ih hsegments, List.reverse_cons, List.append_assoc,
      List.singleton_append]

theorem escape_of_isPlainSegment {segment : List Char} (h : IsPlainSegment segment) :
    escape isPathChar segment = segment := by
  have hkept : ∀ c ∈ segment,
      (if isPathChar c then [c] else (Utf8.encodeChar c).flatMap escapeByte) = [c] :=
    fun c hc ↦ if_pos (isPathChar_of_isPlainChar (h.plain c hc))
  rw [escape, List.flatMap_congr hkept, List.flatMap_singleton']

/-- **Paths.** A plain path is normal. -/
theorem normalPath_plainPath (hsegments : ∀ s ∈ segments, IsPlainSegment s)
    (hne : segments ≠ []) : normalPath (plainPath segments) = plainPath segments := by
  have hslashes : (plainPath segments).map (fun c ↦ if c = '\\' then '/' else c)
      = plainPath segments := by
    refine (List.map_congr_left fun c hc ↦ ?_).trans (List.map_id _)
    exact if_neg (ne_of_mem_plainPath hsegments hc (by decide) (by decide))
  have hsplit : (plainPath segments).splitOn '/' = [] :: segments :=
    splitOn_append_plainPath hsegments []
  rw [normalPath, hslashes, hsplit, List.head?_cons, if_pos rfl, List.drop_one, List.tail_cons,
    resolve_of_isPlainSegment hsegments, List.reverse_nil, List.nil_append, if_neg hne, plainPath]
  exact List.flatMap_congr fun segment hsegment ↦ by
    rw [escape_of_isPlainSegment (hsegments segment hsegment)]

theorem head?_plainPath (hne : segments ≠ []) : (plainPath segments).head? = some '/' := by
  obtain ⟨segment, rest, rfl⟩ := List.exists_cons_of_ne_nil hne
  rfl

theorem pathOf_plainPath (hsegments : ∀ s ∈ segments, IsPlainSegment s) (hne : segments ≠ []) :
    pathOf (String.ofList (plainPath segments)) = plainPath segments := by
  have hwhole : (plainPath segments).takeWhile (fun c ↦ c ≠ '?' && c ≠ '#')
      = plainPath segments := by
    refine List.takeWhile_eq_self_iff.mpr fun c hc ↦ ?_
    rw [Bool.and_eq_true, decide_eq_true_eq, decide_eq_true_eq]
    exact ⟨ne_of_mem_plainPath hsegments hc (by decide) (by decide),
      ne_of_mem_plainPath hsegments hc (by decide) (by decide)⟩
  rw [pathOf, String.toList_ofList, hwhole, if_pos (head?_plainPath hne)]

/-! ## URLs -/

namespace Url

theorem trimUrl_eq_self {text : List Char} (h : ∀ c ∈ text, 0x20 < c.toNat) :
    trimUrl text = text := by
  have hdrop : ∀ rest : List Char, (∀ c ∈ rest, 0x20 < c.toNat) →
      rest.dropWhile (fun c ↦ c.toNat ≤ 0x20) = rest := by
    intro rest hrest
    refine List.dropWhile_eq_self_iff.mpr fun hlength hblank ↦ ?_
    exact absurd (hrest _ (List.getElem_mem hlength)) (Nat.not_lt.mpr (of_decide_eq_true hblank))
  have hfilter : text.filter (fun c ↦ c ≠ '\t' && c ≠ '\n' && c ≠ '\r') = text := by
    refine List.filter_eq_self.mpr fun c hc ↦ ?_
    have hvisible := h c hc
    have hne : ∀ d : Char, d.toNat ≤ 0x20 → c ≠ d := by
      rintro d hd rfl
      exact absurd hvisible (Nat.not_lt.mpr hd)
    simp [hne '\t' (by decide), hne '\n' (by decide), hne '\r' (by decide)]
  rw [trimUrl, hdrop text h, hdrop _ fun c hc ↦ h c (List.mem_reverse.mp hc), List.reverse_reverse,
    hfilter]

theorem isAlpha_of_toLower {c : Char} (h : c.toLower.isAlpha = true) : c.isAlpha = true := by
  by_cases hupper : 'A'.val ≤ c.val ∧ c.val ≤ 'Z'.val
  · exact Bool.or_eq_true_iff.mpr (.inl (decide_eq_true hupper))
  · have hsame : c.toLower = c := dif_neg hupper
    rwa [hsame] at h

theorem lt_toNat_of_isAlpha {c : Char} (h : c.isAlpha = true) : 0x20 < c.toNat := by
  change (decide (c.val ≥ 65 ∧ c.val ≤ 90) || (c.val ≥ 97 && c.val ≤ 122)) = true at h
  simp only [Bool.or_eq_true, Bool.and_eq_true, decide_eq_true_eq, ge_iff_le,
    UInt32.le_iff_toNat_le] at h
  change (65 ≤ c.toNat ∧ c.toNat ≤ 90) ∨ (97 ≤ c.toNat ∧ c.toNat ≤ 122) at h
  omega

variable {scheme : String} {port : Nat} {written : List Char}

theorem isAlpha_of_mem_schemes (hscheme : (scheme, port) ∈ schemes)
    (hwritten : written.map Char.toLower = scheme.toList) :
    written ≠ [] ∧ ∀ c ∈ written, c.isAlpha = true := by
  have hwords : ∀ entry ∈ schemes,
      entry.1.toList ≠ [] ∧ entry.1.toList.all Char.isAlpha = true := by decide
  obtain ⟨hne, hall⟩ := hwords _ hscheme
  rw [← hwritten] at hne hall
  refine ⟨List.map_eq_nil_iff.not.mp hne, fun c hc ↦ isAlpha_of_toLower ?_⟩
  exact List.all_eq_true.mp hall _ (List.mem_map_of_mem hc)

theorem scheme?_written (hscheme : (scheme, port) ∈ schemes)
    (hwritten : written.map Char.toLower = scheme.toList) (rest : List Char) :
    scheme? (written ++ ':' :: rest) = some (scheme, rest) := by
  obtain ⟨hne, hletters⟩ := isAlpha_of_mem_schemes hscheme hwritten
  obtain ⟨c, letters, rfl⟩ := List.exists_cons_of_ne_nil hne
  have hword : ∀ d ∈ c :: letters, isSchemeChar d = true := by
    intro d hd
    simp [isSchemeChar, Char.isAlphanum, hletters d hd]
  have htake : (c :: letters ++ ':' :: rest).takeWhile isSchemeChar = c :: letters := by
    rw [List.takeWhile_append_of_pos hword, List.takeWhile_cons_of_neg (by decide), List.append_nil]
  have hdrop : (c :: letters ++ ':' :: rest).dropWhile isSchemeChar = ':' :: rest := by
    rw [List.dropWhile_append_of_pos hword, List.dropWhile_cons_of_neg (by decide)]
  rw [scheme?, htake, hdrop]
  dsimp only
  rw [if_pos ⟨hletters c List.mem_cons_self, rfl⟩, hwritten, String.ofList_toList]

/-- **Schemes.** What has a scheme and slashes in front is read behind them. -/
theorem ofText?_written (spelling : NameSpelling) {lead rest : List Char}
    (hscheme : (scheme, port) ∈ schemes) (hwritten : written.map Char.toLower = scheme.toList)
    (hlead : ∀ c ∈ lead, isSlash c = true) (hrest : ∀ c ∈ rest, 0x20 < c.toNat)
    (hhead : rest.head?.all (!isSlash ·) = true) :
    ofText? spelling (String.ofList (written ++ ':' :: (lead ++ rest)))
      = ofRest? spelling scheme port rest := by
  have hslash : ∀ c, isSlash c = true → 0x20 < c.toNat := by
    intro c hc
    rw [isSlash, Bool.or_eq_true, decide_eq_true_eq, decide_eq_true_eq] at hc
    rcases hc with rfl | rfl <;> decide
  have hvisible : ∀ c ∈ written ++ ':' :: (lead ++ rest), 0x20 < c.toNat := by
    simp only [List.mem_append, List.mem_cons]
    rintro c (hc | rfl | hc | hc)
    · exact lt_toNat_of_isAlpha ((isAlpha_of_mem_schemes hscheme hwritten).2 c hc)
    · decide
    · exact hslash c (hlead c hc)
    · exact hrest c hc
  have hport : schemes.lookup scheme = some port :=
    (by decide : ∀ entry ∈ schemes, schemes.lookup entry.1 = some entry.2) _ hscheme
  have hslashes : (lead ++ rest).dropWhile isSlash = rest := by
    rw [List.dropWhile_append_of_pos hlead]
    rcases rest with _ | ⟨c, rest⟩
    · rfl
    · rw [List.head?_cons, Option.all_some, Bool.not_eq_true'] at hhead
      exact List.dropWhile_cons_of_neg (Bool.eq_false_iff.mp hhead)
  rw [ofText?, String.toList_ofList, trimUrl_eq_self hvisible, scheme?_written hscheme hwritten,
    Option.bind_eq_bind, Option.bind_some]
  dsimp only
  rw [hport, Option.bind_eq_bind, Option.bind_some, hslashes]

end Url

/-- The URL of a server: a scheme in letters of either case, slashes, whatever spells the host and
its port, and slashes. -/
structure ServerUrl (spelling : NameSpelling) where
  scheme : String
  port : Nat
  written : List Char
  lead : List Char
  authority : List Char
  host : List Char
  slashes : Nat
  scheme_mem : (scheme, port) ∈ Url.schemes
  written_eq : written.map Char.toLower = scheme.toList
  lead_slashes : ∀ c ∈ lead, Url.isSlash c = true
  visible : ∀ c ∈ authority, Url.endsHost c = false ∧ 0x20 < c.toNat
  server_eq : server? spelling port (Url.dropCredentials authority) = some host

namespace ServerUrl

variable {spelling : NameSpelling} (url : ServerUrl spelling)

def text : String :=
  String.ofList
    (url.written ++ ':' :: (url.lead ++ url.authority) ++ List.replicate url.slashes '/')

/-- What the URL names with a path behind it. -/
def on (path : String) : Url := ⟨url.scheme, String.ofList url.host, path⟩

theorem authority_ne_nil : url.authority ≠ [] := by
  intro hempty
  have hserver := url.server_eq
  rw [hempty] at hserver
  cases hserver

theorem urlOn_text (path : List Char) :
    urlOn url.text (String.ofList path)
      = String.ofList (url.written ++ ':' :: (url.lead ++ (url.authority ++ path))) := by
  have hslashes : ∀ c ∈ List.replicate url.slashes '/', decide (c = '/') = true :=
    fun c hc ↦ decide_eq_true (List.eq_of_mem_replicate hc)
  -- What spells the host ends in something else than a slash.
  obtain ⟨c, front, hfront⟩ :=
    List.exists_cons_of_ne_nil (List.reverse_ne_nil_iff.mpr url.authority_ne_nil)
  have hc : ¬decide (c = '/') = true := by
    intro hslash
    have hmem : c ∈ url.authority := List.mem_reverse.mp (hfront ▸ List.mem_cons_self)
    rw [of_decide_eq_true hslash] at hmem
    exact absurd (url.visible _ hmem).1 (by decide)
  have hend : url.text.toList.reverse.dropWhile (· = '/')
      = url.authority.reverse ++ (url.written ++ ':' :: url.lead).reverse := by
    have hwhole : url.written ++ ':' :: (url.lead ++ url.authority)
        = url.written ++ ':' :: url.lead ++ url.authority := by
      rw [List.append_assoc, List.cons_append]
    rw [text, String.toList_ofList, hwhole, List.reverse_append, List.reverse_append,
      List.reverse_replicate, List.dropWhile_append_of_pos hslashes, hfront]
    exact List.dropWhile_cons_of_neg hc
  rw [urlOn, hend, List.reverse_append, List.reverse_reverse, List.reverse_reverse,
    ← String.ofList_append, List.append_assoc, List.append_assoc, List.cons_append]

theorem ofRest?_authority (hsegments : ∀ s ∈ segments, IsPlainSegment s) (hne : segments ≠ []) :
    Url.ofRest? spelling url.scheme url.port (url.authority ++ plainPath segments)
      = some (url.on (String.ofList (plainPath segments))) := by
  obtain ⟨rest, hrest⟩ : ∃ rest, plainPath segments = '/' :: rest := by
    obtain ⟨segment, rest, rfl⟩ := List.exists_cons_of_ne_nil hne
    exact ⟨_, rfl⟩
  have hvisible : ∀ c ∈ url.authority, (!Url.endsHost c) = true := fun c hc ↦ by
    rw [(url.visible c hc).1]
    rfl
  have hfront : (url.authority ++ plainPath segments).takeWhile (fun c ↦ !Url.endsHost c)
      = url.authority := by
    rw [List.takeWhile_append_of_pos hvisible, hrest]
    exact List.append_nil _
  have hback : (url.authority ++ plainPath segments).dropWhile (fun c ↦ !Url.endsHost c)
      = plainPath segments := by
    rw [List.dropWhile_append_of_pos hvisible, hrest]
    rfl
  have hmark : ∀ d ≠ '/', ¬isPlainChar d = true →
      (plainPath segments).takeWhile (· ≠ d) = plainPath segments := fun d hslash hplain ↦
    List.takeWhile_eq_self_iff.mpr fun c hc ↦
      decide_eq_true (ne_of_mem_plainPath hsegments hc hslash hplain)
  have hfragment := hmark '#' (by decide) (by decide)
  have hpath := hmark '?' (by decide) (by decide)
  have hquery : (plainPath segments).dropWhile (· ≠ '?') = [] :=
    List.dropWhile_eq_nil_iff.mpr (List.takeWhile_eq_self_iff.mp hpath)
  rw [Url.ofRest?, hfront, url.server_eq, hback, hfragment, Option.bind_eq_bind,
    Option.bind_some]
  dsimp only
  rw [hpath, hquery, normalPath_plainPath hsegments hne]
  dsimp only
  rw [List.append_nil]
  rfl

/-- **URLs.** A URL with a plain path behind it names the host and the path. -/
theorem callable_urlOn (hsegments : ∀ s ∈ segments, IsPlainSegment s) (hne : segments ≠ [])
    (hsendable : (url.on (String.ofList (plainPath segments))).isSendable = true) :
    Url.callable spelling (urlOn url.text (String.ofList (plainPath segments)))
      = .ok (url.on (String.ofList (plainPath segments))) := by
  have hvisible : ∀ c ∈ url.authority ++ plainPath segments, 0x20 < c.toNat := by
    intro c hc
    rcases List.mem_append.mp hc with hc | hc
    · exact (url.visible c hc).2
    · exact lt_toNat_of_mem_plainPath hsegments hc
  have hhead : (url.authority ++ plainPath segments).head?.all (!Url.isSlash ·) = true := by
    obtain ⟨c, rest, hauthority⟩ := List.exists_cons_of_ne_nil url.authority_ne_nil
    have hend := (url.visible c (hauthority ▸ List.mem_cons_self)).1
    rw [Url.endsHost, Bool.or_eq_false_iff, Bool.or_eq_false_iff] at hend
    rw [hauthority, List.cons_append, List.head?_cons, Option.all_some, hend.1.1, Bool.not_false]
  rw [Url.callable, url.urlOn_text,
    Url.ofText?_written spelling url.scheme_mem url.written_eq url.lead_slashes hvisible hhead,
    url.ofRest?_authority hsegments hne]
  exact if_pos hsendable

end ServerUrl

end DualSeal.Http
