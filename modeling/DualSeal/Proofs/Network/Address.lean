import DualSeal.Network.Address
import DualSeal.Proofs.Text.Numeral
import Mathlib.Data.List.TakeWhile

/-!
# Socket addresses are read back

Every address is read from what is written for it (`ofText?_text`). For an IPv6 host the reader goes
over the groups in front of a shortened run of zeros and over those behind it, and what is missing
to eight are the zeros (`exists_eq_of_longestZeros`); or over six groups and an IPv4 address. No
group of hexadecimal digits is ever taken for the beginning of an IPv4 address, because no point
follows it.
-/

namespace DualSeal

open Numeral

open SocketAddress (readMark?)

theorem SocketAddress.readMark?_eq_none {mark : Char} {text : List Char}
    (h : text.head? ≠ some mark) : readMark? mark text = none := by
  cases text with
  | nil => rfl
  | cons c text => exact if_neg fun hc ↦ h (congrArg some hc)

/-! ## IPv4 -/

namespace Ipv4

variable {rest text : List Char}

/-- A written part has no needless zero in front. -/
theorem octet?_write (part : UInt8) (hrest : StopsAt (isDigit 10) rest) :
    octet? (write 10 part.toNat ++ rest) = some (part, rest) := by
  have htake := (takeWhile_append_of_stopsAt (isDigit_of_mem_write (n := part.toNat)
    (by decide : 1 < 10) (by decide)) hrest).1
  have hzero : ¬ (1 < (write 10 part.toNat).length ∧ (write 10 part.toNat).head? = some '0') := by
    rintro ⟨hlength, hhead⟩
    by_cases hpart : part.toNat = 0
    · rw [hpart] at hlength
      exact absurd hlength (by decide)
    · exact head?_write_ne (by decide) (by decide) hpart hhead
  rw [octet?, htake]
  dsimp only
  rw [if_neg hzero, read?_write (by decide) (by decide) part.toNat_lt hrest]
  exact congrArg (fun part ↦ some (part, rest)) UInt8.ofNat_toNat

theorem chars_eq (host : Ipv4) :
    host.chars = write 10 host.a.toNat ++ '.' :: (write 10 host.b.toNat ++
      '.' :: (write 10 host.c.toNat ++ '.' :: write 10 host.d.toNat)) := by
  simp [chars, List.intercalate_cons_cons]

/-- **IPv4 addresses.** Reading undoes writing. -/
theorem read?_chars (host : Ipv4) (hrest : StopsAt (isDigit 10) rest) :
    read? (host.chars ++ rest) = some (host, rest) := by
  have hpoint : ∀ behind, StopsAt (isDigit 10) ('.' :: behind) := fun _ ↦ stopsAt_cons (by decide)
  simp [chars_eq, read?, octet?_write _ (hpoint _), octet?_write _ hrest, readMark?]

theorem eq_dropWhile_of_octet? {part : UInt8} (h : octet? text = some (part, rest)) :
    rest = text.dropWhile (isDigit 10) := by
  rw [octet?] at h
  split_ifs at h
  rw [Numeral.read?] at h
  dsimp only at h
  split_ifs at h
  · cases h
  · exact (Prod.mk.inj (Option.some.inj h)).2.symm

theorem read?_eq_none (h : (text.dropWhile (isDigit 10)).head? ≠ some '.') : read? text = none := by
  rw [read?]
  rcases hoctet : octet? text with _ | ⟨part, rest⟩
  · rfl
  · obtain rfl := eq_dropWhile_of_octet? hoctet
    simp [SocketAddress.readMark?_eq_none h]

theorem groups_ofGroups (first second : UInt16) :
    (ofGroups first second).groups = [first, second] := by
  have hgroup : ∀ group : UInt16, UInt16.ofNat ((UInt8.ofNat (group.toNat / 256)).toNat * 256
      + (UInt8.ofNat group.toNat).toNat) = group := by
    intro group
    have hlt := group.toNat_lt
    have hnat : (UInt8.ofNat (group.toNat / 256)).toNat * 256 + (UInt8.ofNat group.toNat).toNat
        = group.toNat := by
      simp only [UInt8.toNat_ofNat']
      omega
    rw [hnat, UInt16.ofNat_toNat]
  rw [groups, ofGroups, hgroup, hgroup]

end Ipv4

/-! ## IPv6 -/

namespace Ipv6

variable {room : Nat} {first : Bool} {group : UInt16} {groups : List UInt16} {rest text : List Char}

/-- A character that a group may go on with, or turn out to be part of an IPv4 address with. -/
def goesOn (c : Char) : Bool := isDigit 16 c || c = '.'

theorem stopsAt_isDigit_of_goesOn (h : StopsAt goesOn rest) : StopsAt (isDigit 16) rest :=
  fun c hc ↦ (Bool.or_eq_false_iff.mp (h c hc)).1

theorem stopsAt_colon : StopsAt goesOn (':' :: rest) := stopsAt_cons (by decide)

theorem group?_write (hrest : StopsAt (isDigit 16) rest) :
    group? (write 16 group.toNat ++ rest) = some (group, rest) := by
  have htake := (takeWhile_append_of_stopsAt (isDigit_of_mem_write (n := group.toNat)
    (by decide : 1 < 16) (by decide)) hrest).1
  have hlength : (write 16 group.toNat).length ≤ 4 :=
    (Nat.length_toDigits_le_iff (by decide) (by decide)).mpr group.toNat_lt
  rw [group?, htake, if_neg (Nat.not_lt.mpr hlength),
    read?_write (by decide) (by decide) group.toNat_lt hrest]
  exact congrArg (fun group ↦ some (group, rest)) UInt16.ofNat_toNat

/-- A written group is not the beginning of an IPv4 address. -/
theorem readIpv4?_write (hrest : StopsAt goesOn rest) :
    Ipv4.read? (write 16 group.toNat ++ rest) = none := by
  refine Ipv4.read?_eq_none ?_
  have hpoint : ∀ c ∈ write 16 group.toNat, c ≠ '.' := fun c hc ↦
    ne_of_isDigit (isDigit_of_mem_write (by decide) (by decide) c hc) (by decide)
  -- The decimal digits end within the group or with it, and in neither place stands a point.
  generalize write 16 group.toNat = digits at hpoint ⊢
  induction digits with
  | nil =>
    have hdecimal : StopsAt (isDigit 10) rest :=
      stopsAt_isDigit_mono (by decide) (stopsAt_isDigit_of_goesOn hrest)
    rw [List.nil_append, (takeWhile_of_stopsAt hdecimal).2]
    exact fun h ↦ absurd (hrest '.' h) (by decide)
  | cons c front ih =>
    obtain ⟨hc, hfront⟩ := List.forall_mem_cons.mp hpoint
    rw [List.cons_append, List.dropWhile_cons]
    split
    · exact ih hfront
    · exact fun h ↦ hc (Option.some.inj h)

/-- **One group.** It is read, and reading goes on behind it. -/
theorem readRun_write (room : Nat) (first : Bool) (group : UInt16) (hrest : StopsAt goesOn rest) :
    readRun (room + 1) first ((if first then [] else [':']) ++ (write 16 group.toNat ++ rest))
      = ⟨group :: (readRun room false rest).groups, (readRun room false rest).endsInIpv4,
        (readRun room false rest).rest⟩ := by
  have hstart : (if first
      then some ((if first then [] else [':']) ++ (write 16 group.toNat ++ rest))
      else readMark? ':' ((if first then [] else [':']) ++ (write 16 group.toNat ++ rest)))
        = some (write 16 group.toNat ++ rest) := by
    cases first <;> rfl
  rw [readRun, hstart]
  dsimp only
  rw [readIpv4?_write hrest, ite_self]
  dsimp only
  rw [group?_write (stopsAt_isDigit_of_goesOn hrest)]

theorem readRun_of_stopsAt
    (h : ∀ start, (if first then some text else readMark? ':' text) = some start →
      StopsAt (isDigit 16) start) : readRun room first text = ⟨[], false, text⟩ := by
  cases room with
  | zero => rfl
  | succ room =>
    rw [readRun]
    rcases hstart : if first then some text else readMark? ':' text with _ | start
    · rfl
    have hstop := h start hstart
    have htake : ∀ base ≤ 16, start.takeWhile (isDigit base) = [] := fun _ hbase ↦
      (takeWhile_of_stopsAt (stopsAt_isDigit_mono hbase hstop)).1
    have hgroup : group? start = none := by
      simp [group?, Numeral.read?, htake]
    have hipv4 : Ipv4.read? start = none := by
      simp [Ipv4.read?, Ipv4.octet?, Numeral.read?, htake]
    dsimp only
    rw [hipv4, ite_self]
    dsimp only
    rw [hgroup]

/-- Groups end here: none goes on, and none follows behind a colon. -/
def Ends (rest : List Char) : Prop :=
  StopsAt goesOn rest ∧ ∀ start, readMark? ':' rest = some start → StopsAt (isDigit 16) start

theorem readRun_of_ends (h : Ends rest) : readRun room first rest = ⟨[], false, rest⟩ := by
  refine readRun_of_stopsAt fun start hstart ↦ ?_
  cases first with
  | true => exact Option.some.inj hstart ▸ stopsAt_isDigit_of_goesOn h.1
  | false => exact h.2 start hstart

theorem ends_colons : Ends (':' :: ':' :: rest) :=
  ⟨stopsAt_colon, fun _ hstart ↦ Option.some.inj hstart ▸ stopsAt_cons (by decide)⟩

/-- Groups that all have a colon in front. -/
def furtherChars (groups : List UInt16) : List Char :=
  groups.flatMap fun group ↦ ':' :: write 16 group.toNat

theorem groupChars_cons (group : UInt16) (groups : List UInt16) :
    groupChars (group :: groups) = write 16 group.toNat ++ furtherChars groups := by
  induction groups generalizing group with
  | nil => simp [groupChars, furtherChars]
  | cons next groups ih =>
    have htail : groupChars (group :: next :: groups)
        = write 16 group.toNat ++ ':' :: groupChars (next :: groups) := by
      simp [groupChars, List.intercalate_cons_cons]
    rw [htail, ih]
    rfl

theorem stopsAt_furtherChars (groups : List UInt16) (h : Ends rest) :
    StopsAt goesOn (furtherChars groups ++ rest) := by
  cases groups with
  | nil => exact h.1
  | cons => exact stopsAt_colon

theorem readRun_furtherChars (hroom : groups.length ≤ room) (hrest : Ends rest) :
    readRun room false (furtherChars groups ++ rest) = ⟨groups, false, rest⟩ := by
  induction groups generalizing room with
  | nil => exact readRun_of_ends hrest
  | cons group groups ih =>
    obtain ⟨room, rfl⟩ := Nat.exists_eq_add_of_le' (Nat.zero_lt_of_lt hroom)
    have hchars : furtherChars (group :: groups) ++ rest
        = ':' :: (write 16 group.toNat ++ (furtherChars groups ++ rest)) := by
      simp [furtherChars]
    have hread := readRun_write room false group (stopsAt_furtherChars groups hrest)
    rw [ih (Nat.le_of_succ_le_succ hroom)] at hread
    exact hchars ▸ hread

/-- **A run of groups.** Reading undoes writing, where there is room for all of them. -/
theorem readRun_groupChars (hroom : groups.length ≤ room) (hrest : Ends rest) :
    readRun room true (groupChars groups ++ rest) = ⟨groups, false, rest⟩ := by
  cases groups with
  | nil => exact readRun_of_ends hrest
  | cons group groups =>
    obtain ⟨room, rfl⟩ := Nat.exists_eq_add_of_le' (Nat.zero_lt_of_lt hroom)
    have hread := readRun_write room true group (stopsAt_furtherChars groups hrest)
    rw [readRun_furtherChars (Nat.le_of_succ_le_succ hroom) hrest] at hread
    rw [groupChars_cons, List.append_assoc]
    exact hread

theorem readRun_ipv4 (hroom : room ≠ 0) (host : Ipv4) (hrest : StopsAt (isDigit 10) rest) :
    readRun (room + 1) false (':' :: (host.chars ++ rest)) = ⟨host.groups, true, rest⟩ := by
  have hmark : readMark? ':' (':' :: (host.chars ++ rest)) = some (host.chars ++ rest) := rfl
  rw [readRun, if_neg Bool.false_ne_true, hmark]
  dsimp only
  rw [if_neg hroom, Ipv4.read?_chars host hrest]

/-! ### Shortened runs of zeros -/

/-- What is found is a run of zeros. -/
theorem exists_eq_of_longestZeros (start : Nat) (groups : List UInt16) :
    ∃ front back, groups = front ++ List.replicate (longestZeros start groups).2 0 ++ back ∧
      (longestZeros start groups).1 = start + front.length := by
  induction groups generalizing start with
  | nil => exact ⟨[], [], rfl, rfl⟩
  | cons group groups ih =>
    rw [longestZeros]
    split
    · have hzeros : (group :: groups).takeWhile (· = 0)
          = List.replicate (leadingZeros (group :: groups)) 0 :=
        List.eq_replicate_iff.mpr ⟨rfl, fun zero hzero ↦ by
          have hdecide := List.mem_takeWhile_imp hzero
          exact of_decide_eq_true hdecide⟩
      refine ⟨[], (group :: groups).dropWhile (· = 0), ?_, rfl⟩
      rw [← hzeros, List.nil_append, List.takeWhile_append_dropWhile]
    · obtain ⟨front, back, hgroups, hstart⟩ := ih (start + 1)
      refine ⟨group :: front, back, congrArg (group :: ·) hgroups, ?_⟩
      rw [hstart, List.length_cons]
      omega

@[simp] theorem ofGroups?_groups (host : Ipv6) : ofGroups? host.groups = some host :=
  dif_pos host.length_eq

/-- The groups that two runs leave out are zeros. -/
theorem read?_of_runs {host : Ipv6} {front back : List UInt16} {zeros : Nat} {endsInIpv4 : Bool}
    {behind : List Char} (hhost : host.groups = front ++ List.replicate zeros 0 ++ back)
    (hzeros : 0 < zeros) (hfront : readRun 8 true text = ⟨front, false, ':' :: ':' :: behind⟩)
    (hback : readRun (7 - front.length) true behind = ⟨back, endsInIpv4, rest⟩) :
    read? text = some (host, rest) := by
  have hlength := host.length_eq
  simp only [hhost, List.length_append, List.length_replicate] at hlength
  have hne : front.length ≠ 8 := by omega
  have hmissing : 8 - front.length - back.length = zeros := by omega
  have hread : ofGroups? (front ++ (List.replicate zeros 0 ++ back)) = some host := by
    rw [← List.append_assoc, ← hhost, ofGroups?_groups]
  simp [read?, hfront, hback, hne, hmissing, readMark?, hread]

theorem read?_mapped {host : Ipv6} {low high : UInt16}
    (hhost : host.groups = [0, 0, 0, 0, 0, 0xFFFF, low, high]) (hrest : Ends rest) :
    read? ("::ffff:".toList ++ (Ipv4.ofGroups low high).chars ++ rest) = some (host, rest) := by
  set ipv4 := Ipv4.ofGroups low high with hipv4
  have hdecimal : StopsAt (isDigit 10) rest :=
    stopsAt_isDigit_mono (by decide) (stopsAt_isDigit_of_goesOn hrest.1)
  have hback : readRun 7 true ("ffff".toList ++ ':' :: (ipv4.chars ++ rest))
      = ⟨0xFFFF :: ipv4.groups, true, rest⟩ := by
    have hcolon : StopsAt goesOn (':' :: (ipv4.chars ++ rest)) := stopsAt_colon
    have hread := readRun_write 6 true 0xFFFF hcolon
    rw [readRun_ipv4 (by decide) ipv4 hdecimal] at hread
    exact hread
  have hchars : "::ffff:".toList ++ ipv4.chars ++ rest
      = ':' :: ':' :: ("ffff".toList ++ ':' :: (ipv4.chars ++ rest)) := by
    simp
  rw [hchars]
  have hgroups : host.groups = [] ++ List.replicate 5 0 ++ 0xFFFF :: ipv4.groups := by
    rw [hhost, hipv4, Ipv4.groups_ofGroups]
    rfl
  exact read?_of_runs hgroups (by decide) (readRun_of_ends ends_colons) hback

theorem read?_shortChars (host : Ipv6) (hrest : Ends rest) :
    read? (shortChars host.groups ++ rest) = some (host, rest) := by
  obtain ⟨front, back, hgroups, hstart⟩ := exists_eq_of_longestZeros 0 host.groups
  rw [shortChars]
  generalize longestZeros 0 host.groups = run at hgroups hstart ⊢
  obtain ⟨start, zeros⟩ := run
  obtain rfl : start = front.length := hstart.trans (Nat.zero_add _)
  dsimp only at hgroups ⊢
  split_ifs with hzeros
  · have hread : readRun 8 true (groupChars host.groups ++ rest) = ⟨host.groups, false, rest⟩ :=
      readRun_groupChars host.length_eq.le hrest
    simp [read?, hread, host.length_eq]
  · have htake : host.groups.take front.length = front := by
      rw [hgroups, List.append_assoc, List.take_left]
    have hdrop : host.groups.drop (front.length + zeros) = back := by
      rw [hgroups]
      exact List.drop_left' (by rw [List.length_append, List.length_replicate])
    have hlength := host.length_eq
    simp only [hgroups, List.length_append, List.length_replicate] at hlength
    -- The zeros take two groups at least, so that seven are room enough for the others.
    rw [htake, hdrop, List.append_assoc]
    exact read?_of_runs hgroups (by omega) (readRun_groupChars (by omega) ends_colons)
      (readRun_groupChars (by omega) hrest)

/-- **IPv6 addresses.** Reading undoes writing. -/
theorem read?_chars (host : Ipv6) (hrest : Ends rest) :
    read? (host.chars ++ rest) = some (host, rest) := by
  rw [chars]
  split
  case h_1 low high hhost => exact read?_mapped hhost hrest
  case h_2 groups _ => exact read?_shortChars host hrest

end Ipv6

/-! ## Addresses with ports -/

namespace SocketAddress

theorem port?_write (port : UInt16) : port? (':' :: write 10 port.toNat) = some (port, []) := by
  have hread : Numeral.read? 10 0x10000 (write 10 port.toNat) = some (port.toNat, []) := by
    have hread := read?_write (by decide : 1 < 10) (by decide) port.toNat_lt stopsAt_nil
    rwa [List.append_nil] at hread
  simp only [port?, readMark?, if_true, Option.bind_eq_bind, Option.bind_some, hread]
  exact congrArg (fun port ↦ some (port, [])) UInt16.ofNat_toNat

theorem readScope_write (scope : UInt32) {rest : List Char} (hrest : StopsAt (isDigit 10) rest)
    (hmark : rest.head? ≠ some '%') :
    readScope ((if scope = 0 then [] else '%' :: write 10 scope.toNat) ++ rest)
      = (scope, rest) := by
  split_ifs with hscope
  · rw [List.nil_append, readScope, readMark?_eq_none hmark, hscope]
  · have hsome : readMark? '%' ('%' :: (write 10 scope.toNat ++ rest))
        = some (write 10 scope.toNat ++ rest) := rfl
    rw [List.cons_append, readScope, hsome]
    dsimp only
    rw [read?_write (by decide) (by decide) scope.toNat_lt hrest]
    exact congrArg (fun scope ↦ (scope, rest)) UInt32.ofNat_toNat

theorem readV4?_chars (host : Ipv4) (port : UInt16) :
    readV4? (chars (.v4 host port)) = some (.v4 host port, []) := by
  have hcolon : StopsAt (isDigit 10) (':' :: write 10 port.toNat) := stopsAt_cons (by decide)
  simp [chars, readV4?, port?_write, Ipv4.read?_chars host hcolon]

theorem readV4?_bracket (text : List Char) : readV4? ('[' :: text) = none := by
  have hnone : Ipv4.read? ('[' :: text) = none := by
    refine Ipv4.read?_eq_none ?_
    rw [List.dropWhile_cons_of_neg (by decide)]
    exact of_decide_eq_true rfl
  rw [readV4?, hnone]
  rfl

theorem readV6?_chars (host : Ipv6) (scope : UInt32) (port : UInt16) :
    readV6? (chars (.v6 host scope port)) = some (.v6 host scope port, []) := by
  set behind := ']' :: ':' :: write 10 port.toNat with hbehind
  set scopeChars := if scope = 0 then [] else '%' :: write 10 scope.toNat with hscope
  have hends : Ipv6.Ends (scopeChars ++ behind) := by
    rw [hscope]
    split_ifs <;> exact ⟨stopsAt_cons (by decide), nofun⟩
  have hread : readScope (scopeChars ++ behind) = (scope, behind) :=
    readScope_write scope (stopsAt_cons (by decide)) fun hmark ↦
      absurd (Option.some.inj hmark) (by decide)
  have hopen (rest) : readMark? '[' ('[' :: rest) = some rest := rfl
  have hclose : readMark? ']' behind = some (':' :: write 10 port.toNat) := rfl
  have hchars : chars (.v6 host scope port) = '[' :: (host.chars ++ (scopeChars ++ behind)) := by
    simp [chars, hscope, hbehind]
  rw [hchars]
  simp [readV6?, hopen, Ipv6.read?_chars host hends, hread, hclose, port?_write]

/-- **Addresses.** Reading undoes writing. -/
theorem ofText?_text (address : SocketAddress) : ofText? address.text = some address := by
  rw [ofText?, text, String.toList_ofList]
  cases address with
  | v4 host port =>
    rw [readV4?_chars]
    rfl
  | v6 host scope port =>
    have hv4 : readV4? (chars (.v6 host scope port)) = none := readV4?_bracket _
    rw [hv4, Option.none_or, readV6?_chars]

end SocketAddress

end DualSeal
