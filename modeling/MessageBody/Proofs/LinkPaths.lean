import Mathlib.Data.List.TakeWhile
import MessageBody.Proofs.LinkAddresses

/-! # The paths of deep links

    What is taken for a deep link is what its path says: the ids in the link are the
    decoded segments of the part of the address that stands between the start of deep
    links and the first question mark, where tabs and line breaks count for nothing.  The
    number signs in that part are escaped before it is read, which changes neither where
    its segments end nor what they stand for.

    There is one exception.  Where that part begins with a slash, an address with two
    slashes in front is read, and the second one announces a server.  The name of the
    server is left out, and the ids are what stands behind it. -/

namespace MessageBody

/-! ## Cutting texts -/

namespace Text

/-- A text is cut into pieces without the separator, which make it up with the separator
    in front of each but the first. -/
theorem exists_splitAtChar (sep : Char) (s : List Char) :
    ∃ first rest, splitAtChar sep s = first :: rest
      ∧ s = first ++ rest.flatMap (sep :: ·) ∧ ∀ piece ∈ first :: rest, sep ∉ piece := by
  induction s with
  | nil => exact ⟨[], [], rfl, rfl, by simp⟩
  | cons c cs ih =>
      obtain ⟨first, rest, hcut, hcs, hpieces⟩ := ih
      rw [splitAtChar]
      by_cases hc : c = sep
      · rw [if_pos hc, hcut]
        refine ⟨[], first :: rest, rfl, ?_, List.forall_mem_cons.mpr ⟨List.not_mem_nil, hpieces⟩⟩
        rw [List.nil_append, List.flatMap_cons, List.cons_append, ← hcs, hc]
      · rw [if_neg hc, hcut]
        obtain ⟨hfirst, hrest⟩ := List.forall_mem_cons.mp hpieces
        refine ⟨c :: first, rest, rfl, congrArg (c :: ·) hcs, List.forall_mem_cons.mpr ⟨?_, hrest⟩⟩
        exact List.not_mem_cons_of_ne_of_not_mem (Ne.symm hc) hfirst

end Text

namespace Link

/-! ## Escaping number signs -/

theorem escapeNumberSigns_cons {c : Char} (h : c ≠ '#') (s : List Char) :
    escapeNumberSigns (c :: s) = c :: escapeNumberSigns s := by
  rw [escapeNumberSigns, List.flatMap_cons, if_neg h]
  rfl

theorem escapeNumberSigns_sign (s : List Char) :
    escapeNumberSigns ('#' :: s) = '%' :: '2' :: '3' :: escapeNumberSigns s :=
  rfl

/-- Every character of an escaped number sign has property `p` and a number sign has
    property `q`; of any other character the two say the same. -/
structure AgreesOnSigns (p q : Char → Bool) : Prop where
  escape : ∀ d ∈ ['%', '2', '3'], p d = true
  sign : q '#' = true
  other : ∀ d, d ≠ '#' → p d = q d

section AgreesOnSigns

variable {p q : Char → Bool}

/-- An escaped text goes on as long as the text does. -/
theorem takeWhile_escapeNumberSigns (h : AgreesOnSigns p q) (s : List Char) :
    (escapeNumberSigns s).takeWhile p = escapeNumberSigns (s.takeWhile q) := by
  induction s with
  | nil => rfl
  | cons c cs ih =>
      -- a number sign becomes three characters, and the predicates have to agree on all of them
      by_cases hc : c = '#'
      · subst hc
        rw [escapeNumberSigns_sign, List.takeWhile_cons_of_pos (h.escape _ (by decide)),
          List.takeWhile_cons_of_pos (h.escape _ (by decide)),
          List.takeWhile_cons_of_pos (h.escape _ (by decide)), ih,
          List.takeWhile_cons_of_pos h.sign, escapeNumberSigns_sign]
      · rw [escapeNumberSigns_cons hc, List.takeWhile_cons, List.takeWhile_cons, ih, h.other c hc]
        split
        · rw [escapeNumberSigns_cons hc]
        · rfl

/-- Escaping number signs commutes with dropping what agrees on them. -/
theorem dropWhile_escapeNumberSigns (h : AgreesOnSigns p q) (s : List Char) :
    (escapeNumberSigns s).dropWhile p = escapeNumberSigns (s.dropWhile q) := by
  induction s with
  | nil => rfl
  | cons c cs ih =>
      by_cases hc : c = '#'
      · subst hc
        rw [escapeNumberSigns_sign, List.dropWhile_cons_of_pos (h.escape _ (by decide)),
          List.dropWhile_cons_of_pos (h.escape _ (by decide)),
          List.dropWhile_cons_of_pos (h.escape _ (by decide)), ih,
          List.dropWhile_cons_of_pos h.sign]
      · rw [escapeNumberSigns_cons hc, List.dropWhile_cons, List.dropWhile_cons, ih, h.other c hc]
        split
        · rfl
        · rw [escapeNumberSigns_cons hc]

/-- Escaping number signs commutes with leaving out what agrees on them. -/
theorem filter_escapeNumberSigns (h : AgreesOnSigns p q) (s : List Char) :
    (escapeNumberSigns s).filter p = escapeNumberSigns (s.filter q) := by
  induction s with
  | nil => rfl
  | cons c cs ih =>
      by_cases hc : c = '#'
      · subst hc
        rw [escapeNumberSigns_sign, List.filter_cons_of_pos (h.escape _ (by decide)),
          List.filter_cons_of_pos (h.escape _ (by decide)),
          List.filter_cons_of_pos (h.escape _ (by decide)), ih,
          List.filter_cons_of_pos h.sign, escapeNumberSigns_sign]
      · rw [escapeNumberSigns_cons hc, List.filter_cons, List.filter_cons, ih, h.other c hc]
        split
        · rw [escapeNumberSigns_cons hc]
        · rfl

end AgreesOnSigns

/-- No piece of an escaped text ends elsewhere. -/
theorem splitAtChar_escapeNumberSigns (s : List Char) :
    Text.splitAtChar '/' (escapeNumberSigns s)
      = (Text.splitAtChar '/' s).map escapeNumberSigns := by
  induction s with
  | nil => rfl
  | cons c cs ih =>
      obtain ⟨first, rest, hcut, -⟩ := Text.exists_splitAtChar '/' cs
      by_cases hc : c = '#'
      · subst hc
        rw [escapeNumberSigns_sign]
        simp only [Text.splitAtChar, ih, hcut]
        rfl
      · rw [escapeNumberSigns_cons hc]
        by_cases hslash : c = '/'
        · subst hslash
          rw [Text.splitAtChar, Text.splitAtChar, if_pos rfl, if_pos rfl, ih]
          rfl
        · rw [Text.splitAtChar, Text.splitAtChar, if_neg hslash, if_neg hslash, ih, hcut]
          simp only [List.map_cons]
          rw [escapeNumberSigns_cons hc]

/-- The text does not begin with two hexadecimal digits. -/
def LacksDigits (s : List Char) : Prop :=
  ∀ a b rest, s = a :: b :: rest → Text.hexValue? a = none ∨ Text.hexValue? b = none

/-- A percent sign without two digits behind it stands for itself. -/
theorem units_percent {s : List Char} (h : LacksDigits s) :
    units ('%' :: s) = .byte 0x25 :: units s := by
  match s with
  | [] => rfl
  | [a] => rfl
  | a :: b :: rest =>
      rw [units]
      rcases h a b rest rfl with ha | hb
      · rw [ha]
      · rw [hb]
        cases Text.hexValue? a <;> rfl

/-- What is in front of an escaped text and no percent sign is in front of the text. -/
theorem exists_of_escapeNumberSigns {s rest : List Char} {a : Char}
    (h : escapeNumberSigns s = a :: rest) (ha : a ≠ '%') :
    ∃ cs, s = a :: cs ∧ escapeNumberSigns cs = rest := by
  cases s with
  | nil => exact nomatch h
  | cons c cs =>
      by_cases hc : c = '#'
      · subst hc
        rw [escapeNumberSigns_sign] at h
        exact absurd (List.cons.inj h).1.symm ha
      · rw [escapeNumberSigns_cons hc] at h
        obtain ⟨rfl, hrest⟩ := List.cons.inj h
        exact ⟨cs, rfl, hrest⟩

/-- Escaping puts no digits in front. -/
theorem LacksDigits.escapeNumberSigns {s : List Char} (h : LacksDigits s) :
    LacksDigits (escapeNumberSigns s) := by
  intro a b rest hescape
  by_contra hboth
  obtain ⟨ha, hb⟩ := not_or.mp hboth
  have hdigit : ∀ c, Text.hexValue? c ≠ none → c ≠ '%' := by
    rintro c hc rfl
    exact hc (by decide)
  obtain ⟨cs, rfl, hcs⟩ := exists_of_escapeNumberSigns hescape (hdigit a ha)
  obtain ⟨cs, rfl, -⟩ := exists_of_escapeNumberSigns hcs (hdigit b hb)
  exact (h a b cs rfl).elim ha hb

/-- An escaped number sign is read as the number sign. -/
theorem units_escapeNumberSigns (s : List Char) : units (escapeNumberSigns s) = units s := by
  have hpercent : ('%' : Char) ≠ '#' := by decide
  induction s using units.induct with
  | case1 => rfl
  | case2 a b rest x y hy hx ih =>
      -- no digit of a code is a number sign, so the code comes through as it is
      have hdigit : ∀ c, Text.hexValue? c ≠ none → c ≠ '#' := by
        rintro c hc rfl
        exact hc (by decide)
      rw [escapeNumberSigns_cons hpercent, escapeNumberSigns_cons (hdigit a (by rw [hx]; nofun)),
        escapeNumberSigns_cons (hdigit b (by rw [hy]; nofun))]
      simp only [units, hx, hy, ih]
  | case3 a b rest hnone ih =>
      -- a percent sign that begins no code begins none after escaping either
      have hlacks : LacksDigits (a :: b :: rest) := by
        intro a' b' rest' heq
        obtain ⟨rfl, rfl, -⟩ : a = a' ∧ b = b' ∧ rest = rest' := by simpa using heq
        cases hx : Text.hexValue? a with
        | none => exact .inl rfl
        | some x => exact .inr (Option.eq_none_iff_forall_ne_some.mpr fun y hy => hnone x y hx hy)
      rw [escapeNumberSigns_cons hpercent, units_percent hlacks.escapeNumberSigns,
        units_percent hlacks, ih]
  | case4 c rest hne ih =>
      by_cases hc : c = '#'
      · subst hc
        rw [escapeNumberSigns_sign, units_cons_of_ne (show ('#' : Char) ≠ '%' by decide), ← ih]
        rfl
      · rw [escapeNumberSigns_cons hc]
        by_cases hp : c = '%'
        · subst hp
          have hlacks : LacksDigits rest := fun a b rest' h => (hne a b rest' rfl h).elim
          rw [units_percent hlacks.escapeNumberSigns, units_percent hlacks, ih]
        · rw [units_cons_of_ne hp, units_cons_of_ne hp, ih]

/-- An escaped number sign is decoded as the sign itself. -/
theorem percentDecode_escapeNumberSigns (s : List Char) :
    percentDecode (escapeNumberSigns s) = percentDecode s := by
  rw [percentDecode, units_escapeNumberSigns, percentDecode]

/-! ## Reading addresses -/

/-- A character that counts in an address. -/
def counts (c : Char) : Bool :=
  c != '\t' && c != '\n' && c != '\r'

/-- A character that does not end the name of a server; a number sign is escaped before
    it could. -/
def staysInServer (c : Char) : Bool :=
  c != '/' && c != '?'

/-- Whether a character counts in an address is the same for a number sign and its escape. -/
theorem agreesOnSigns_counts : AgreesOnSigns counts counts :=
  ⟨List.all_eq_true.mp rfl, rfl, fun _ _ => rfl⟩

/-- Neither a number sign nor its escape has a question mark. -/
theorem agreesOnSigns_notQuestion : AgreesOnSigns (· != '?') (· != '?') :=
  ⟨List.all_eq_true.mp rfl, rfl, fun _ _ => rfl⟩

/-- A number sign would end a server, but its escape does not. -/
theorem agreesOnSigns_staysInServer :
    AgreesOnSigns (fun c => !(c == '/' || c == '?' || c == '#')) staysInServer := by
  refine ⟨List.all_eq_true.mp rfl, rfl, fun d hd => ?_⟩
  rw [beq_eq_false_iff_ne.mpr hd, Bool.or_false, Bool.not_or]
  rfl

/-- A server has no slash and no question mark. -/
theorem ne_of_mem_server {s : List Char} {c : Char} (h : c ∈ s.takeWhile staysInServer) :
    c ≠ '/' ∧ c ≠ '?' := by
  have hstays := List.mem_takeWhile_imp h
  rwa [staysInServer, Bool.and_eq_true, bne_iff_ne, bne_iff_ne] at hstays

/-- The name of a server ends at a slash, or there is no path behind it. -/
theorem head?_dropWhile_staysInServer (s : List Char) :
    (s.dropWhile staysInServer).head? = some '/'
      ∨ (s.dropWhile staysInServer).takeWhile (· != '?') = [] := by
  have hend := List.head?_dropWhile_not staysInServer s
  cases hbehind : s.dropWhile staysInServer with
  | nil => exact .inr rfl
  | cons c cs =>
      rw [hbehind] at hend
      have hc : staysInServer c = false := hend
      by_cases hslash : c = '/'
      · exact .inl (congrArg some hslash)
      · refine .inr (List.takeWhile_cons_of_neg ?_)
        rw [staysInServer, bne_iff_ne.mpr hslash, Bool.true_and] at hc
        rw [hc]
        exact Bool.false_ne_true

/-- Up to its first question mark, a text is the name of a server and what stands behind
    it up to there. -/
theorem takeWhile_eq_server_append (s : List Char) :
    s.takeWhile (· != '?')
      = s.takeWhile staysInServer ++ (s.dropWhile staysInServer).takeWhile (· != '?') := by
  conv_lhs => rw [← List.takeWhile_append_dropWhile (p := staysInServer) (l := s)]
  exact List.takeWhile_append_of_pos fun c hc => bne_iff_ne.mpr (ne_of_mem_server hc).2

/-- A path ends at the first question mark. -/
theorem path_ofPath (s : List Char) : (Address.ofPath s).path = s.takeWhile (· != '?') := by
  by_cases hquestion : '?' ∈ s
  · obtain ⟨before, after, rfl, hbefore⟩ := List.eq_append_cons_of_mem hquestion
    have hall : ∀ c ∈ before, (c != '?') = true := by
      intro c hc
      rw [bne_iff_ne]
      exact ne_of_mem_of_not_mem hc hbefore
    rw [Address.ofPath, Text.cutAt?_append hbefore, List.takeWhile_append_of_pos hall,
      List.takeWhile_cons_of_neg (by decide), List.append_nil]
  · rw [Address.ofPath, Text.cutAt?_eq_none hquestion]
    refine (List.takeWhile_eq_self_iff.mpr fun c hc => ?_).symm
    rw [bne_iff_ne]
    exact ne_of_mem_of_not_mem hc hquestion

/-- What counts of an address that begins with a slash. -/
theorem filter_counts_cons (t : List Char) :
    ('/' :: escapeNumberSigns t).filter counts = '/' :: escapeNumberSigns (t.filter counts) := by
  rw [List.filter_cons_of_pos (by decide), filter_escapeNumberSigns agreesOnSigns_counts]

/-- Without a second slash in front, what counts of the address is its path and its
    query. -/
theorem parse?_of_head?_ne {t : List Char} (h : (t.filter counts).head? ≠ some '/') :
    Address.parse? ('/' :: escapeNumberSigns t)
      = some (Address.ofPath ('/' :: escapeNumberSigns (t.filter counts))) := by
  rw [Address.parse?]
  simp only [show (fun c : Char => c != '\t' && c != '\n' && c != '\r') = counts from rfl,
    filter_counts_cons]
  split
  · rename_i rest heq
    obtain ⟨cs, hcs, -⟩ := exists_of_escapeNumberSigns (List.cons.inj heq).2 (by decide)
    exact absurd (congrArg List.head? hcs) h
  · rfl

/-- Behind a second slash in front, an address begins with the name of a server, which is
    left out. -/
theorem parse?_server {t rest : List Char} (ht : t.filter counts = '/' :: rest) :
    Address.parse? ('/' :: escapeNumberSigns t)
      = if isMalformedServer (escapeNumberSigns (rest.takeWhile staysInServer)) then none
        else some (Address.ofPath (escapeNumberSigns (rest.dropWhile staysInServer))) := by
  rw [Address.parse?]
  simp only [show (fun c : Char => c != '\t' && c != '\n' && c != '\r') = counts from rfl,
    filter_counts_cons, ht, escapeNumberSigns_cons (show ('/' : Char) ≠ '#' by decide),
    takeWhile_escapeNumberSigns agreesOnSigns_staysInServer,
    dropWhile_escapeNumberSigns agreesOnSigns_staysInServer]

/-- What an address says between the start of deep links and its first question mark. -/
def linkPath (url : List Char) : List Char :=
  ((url.drop deepLinkStart.length).takeWhile (· != '?')).filter counts

/-- The segments of a path behind its first slash are read as they are without the
    escapes. -/
theorem segments_of_path {a : Address} {place : List Char}
    (h : a.path = '/' :: escapeNumberSigns place) :
    a.segments = (Text.splitAtChar '/' place).map percentDecode := by
  have hfront : ∀ s, Text.splitAtChar '/' ('/' :: s) = [] :: Text.splitAtChar '/' s :=
    Text.splitAtChar_append (show '/' ∉ ([] : List Char) from List.not_mem_nil)
  rw [Address.segments, h, hfront, List.drop_one, List.tail_cons, splitAtChar_escapeNumberSigns,
    List.map_map]
  exact List.map_congr_left fun s _ => percentDecode_escapeNumberSigns s

/-- The path of a link is what counts behind its beginning, up to the first question mark. -/
theorem linkPath_eq (url : List Char) :
    linkPath url = ((url.drop deepLinkStart.length).filter counts).takeWhile (· != '?') := by
  rw [linkPath]
  induction url.drop deepLinkStart.length with
  | nil => rfl
  | cons c cs ih =>
      by_cases hc : c = '?'
      · subst hc
        rfl
      · have hother : ∀ cs : List Char,
            (c :: cs).takeWhile (· != '?') = c :: cs.takeWhile (· != '?') :=
          fun cs => List.takeWhile_cons_of_pos (bne_iff_ne.mpr hc)
        rw [hother, List.filter_cons, List.filter_cons]
        split
        · rw [hother, ih]
        · exact ih

end Link

namespace DeepLink

open Link

/-- The ids in a link are what a path says: the path is one encoded id, or two with a
    slash between them. -/
def IsNamedBy (path : List Char) : DeepLink → Prop
  | .user userId _ => '/' ∉ path ∧ percentDecode path = userId.toList
  | .room roomId _ _ => '/' ∉ path ∧ percentDecode path = roomId.toList
  | .message roomId messageId _ _ =>
      ∃ place event, path = place ++ '/' :: event ∧ '/' ∉ place ∧ '/' ∉ event
        ∧ percentDecode place = roomId.toList ∧ percentDecode event = messageId.toList

/-- No link is named by a path that begins with a slash and has another one behind it. -/
theorem not_isNamedBy_server (link : DeepLink) (server place : List Char) :
    ¬link.IsNamedBy ('/' :: (server ++ '/' :: place)) := by
  have hslash : '/' ∈ server ++ '/' :: place := List.mem_append_right _ (List.mem_cons_self ..)
  cases link with
  | user userId url => exact fun h => h.1 (List.mem_cons_self ..)
  | room roomId via url => exact fun h => h.1 (List.mem_cons_self ..)
  | message roomId messageId via url =>
      rintro ⟨first, event, hpath, hfirst, hevent, -⟩
      cases first with
      | nil => exact hevent ((List.cons.inj hpath).2 ▸ hslash)
      | cons c cs => exact hfirst ((List.cons.inj hpath).1 ▸ List.mem_cons_self ..)

/-- A link keeps the address that it is given. -/
theorem url_of_ofSegments? {url : String} {via : List String} {segments : List (List Char)}
    {link : DeepLink} (h : ofSegments? url via segments = some link) : link.url = url := by
  unfold ofSegments? at h
  split at h
  · split at h
    · cases h
      rfl
    · split at h
      · cases h
        rfl
      · exact nomatch h
  · split at h
    · cases h
      rfl
    · exact nomatch h
  · exact nomatch h

/-- The ids in a link are the segments that it is read from. -/
theorem isNamedBy_of_ofSegments? {url : String} {via : List String} {place : List Char}
    {link : DeepLink}
    (h : ofSegments? url via ((Text.splitAtChar '/' place).map percentDecode) = some link) :
    link.IsNamedBy place := by
  obtain ⟨first, rest, hcut, hplace, hpieces⟩ := Text.exists_splitAtChar '/' place
  rw [hcut] at h
  obtain ⟨hfirst, hrest⟩ := List.forall_mem_cons.mp hpieces
  -- links have one segment or two
  rcases rest with _ | ⟨event, _ | ⟨other, more⟩⟩
  · rw [List.flatMap_nil, List.append_nil] at hplace
    subst hplace
    rw [List.map_singleton, ofSegments?] at h
    split at h
    · cases h
      exact ⟨hfirst, (String.toList_ofList).symm⟩
    · split at h
      · cases h
        exact ⟨hfirst, (String.toList_ofList).symm⟩
      · cases h
  · rw [List.flatMap_singleton] at hplace
    rw [List.map_cons, List.map_singleton, ofSegments?] at h
    split at h
    · cases h
      exact ⟨first, event, hplace, hfirst, hrest event (List.mem_cons_self ..),
        (String.toList_ofList).symm, (String.toList_ofList).symm⟩
    · cases h
  · -- a link has no more than two segments
    cases h

/-- What is read of a path is what stands behind its first slash. -/
theorem isNamedBy_of_path {a : Address} {place : List Char} {url : String} {via : List String}
    {link : DeepLink} (h : ofSegments? url via a.segments = some link)
    (ha : a.path = '/' :: escapeNumberSigns place) : link.IsNamedBy place := by
  rw [segments_of_path ha] at h
  exact isNamedBy_of_ofSegments? h

/-- Without a path there is no link. -/
theorem path_ne_nil {a : Address} {url : String} {via : List String} {link : DeepLink}
    (h : ofSegments? url via a.segments = some link) : a.path ≠ [] := by
  intro hnil
  rw [Address.segments, hnil] at h
  exact Option.some_ne_none link h.symm

/-- A link is read from an address behind the start of deep links. -/
theorem exists_parse?_of_ofUrl? {url : List Char} {link : DeepLink} (h : ofUrl? url = some link) :
    deepLinkStart <+: url ∧
      ∃ a, Address.parse? ('/' :: escapeNumberSigns (url.drop deepLinkStart.length)) = some a
        ∧ ofSegments? (String.ofList url) (servers a) a.segments = some link := by
  rw [ofUrl?] at h
  split at h
  · rename_i hstart
    refine ⟨List.isPrefixOf_iff_prefix.mp hstart, ?_⟩
    dsimp only at h
    split at h
    · cases h
    · rename_i a ha
      exact ⟨a, ha, h⟩
  · cases h

/-- A link keeps the address that it is read from. -/
theorem url_of_ofUrl? {url : List Char} {link : DeepLink} (h : ofUrl? url = some link) :
    link.url = String.ofList url := by
  obtain ⟨-, a, -, hsegments⟩ := exists_parse?_of_ofUrl? h
  exact url_of_ofSegments? hsegments

section Reading

variable {target : List Char} {a : Address} {url : String} {via : List String} {link : DeepLink}

/-- A path that does not begin with a slash names the link that is read from it. -/
theorem isNamedBy_of_head?_ne
    (ha : Address.parse? ('/' :: escapeNumberSigns target) = some a)
    (h : ofSegments? url via a.segments = some link)
    (hfirst : ((target.filter counts).takeWhile (· != '?')).head? ≠ some '/') :
    link.IsNamedBy ((target.filter counts).takeWhile (· != '?')) := by
  have hhead : (target.filter counts).head? ≠ some '/' := by
    intro hslash
    obtain ⟨cs, hcs⟩ := List.head?_eq_some_iff.mp hslash
    rw [hcs] at hfirst
    exact hfirst rfl
  rw [parse?_of_head?_ne hhead] at ha
  cases ha
  refine isNamedBy_of_path h ?_
  rw [path_ofPath, List.takeWhile_cons_of_pos (by decide),
    takeWhile_escapeNumberSigns agreesOnSigns_notQuestion]

/-- Of a path that begins with a slash, the name of a server is left out, and what stands
    behind it names the link. -/
theorem isNamedBy_behind_server {rest : List Char}
    (ha : Address.parse? ('/' :: escapeNumberSigns target) = some a)
    (h : ofSegments? url via a.segments = some link)
    (htarget : target.filter counts = '/' :: rest) :
    ∃ server place, rest.takeWhile (· != '?') = server ++ '/' :: place ∧ '/' ∉ server
      ∧ isMalformedServer (escapeNumberSigns server) = false ∧ link.IsNamedBy place := by
  rw [parse?_server htarget] at ha
  split at ha
  · cases ha
  · rename_i hserver
    cases ha
    have hpath : (Address.ofPath (escapeNumberSigns (rest.dropWhile staysInServer))).path
        = escapeNumberSigns ((rest.dropWhile staysInServer).takeWhile (· != '?')) := by
      rw [path_ofPath, takeWhile_escapeNumberSigns agreesOnSigns_notQuestion]
    have hslash : (rest.dropWhile staysInServer).head? = some '/' := by
      rcases head?_dropWhile_staysInServer rest with hslash | hnothing
      · exact hslash
      · -- nothing is read behind the server
        rw [hnothing] at hpath
        exact absurd hpath (path_ne_nil h)
    obtain ⟨more, hmore⟩ := List.head?_eq_some_iff.mp hslash
    rw [hmore] at h hpath
    rw [List.takeWhile_cons_of_pos (by decide), escapeNumberSigns_cons (by decide)] at hpath
    refine ⟨rest.takeWhile staysInServer, more.takeWhile (· != '?'), ?_, ?_,
      Bool.eq_false_iff.mpr hserver, isNamedBy_of_path h hpath⟩
    · rw [takeWhile_eq_server_append, hmore, List.takeWhile_cons_of_pos (by decide)]
    · exact fun hmem => (ne_of_mem_server hmem).1 rfl

end Reading

/-- **No address is taken for a link that it does not write**: the ids in a deep link are
    what the path of its address says, unless the path begins with a slash, and then they
    are what it says behind the name of a server. -/
theorem isNamedBy_of_ofUrl (url : List Char) (link : DeepLink) (h : ofUrl? url = some link) :
    deepLinkStart <+: url ∧ link.url = String.ofList url
      ∧ (link.IsNamedBy (linkPath url) ↔ (linkPath url).head? ≠ some '/')
      ∧ ∀ rest, linkPath url = '/' :: rest →
          ∃ server place, rest = server ++ '/' :: place ∧ '/' ∉ server
            ∧ isMalformedServer (escapeNumberSigns server) = false ∧ link.IsNamedBy place := by
  obtain ⟨hstart, a, ha, hsegments⟩ := exists_parse?_of_ofUrl? h
  have hserver : ∀ rest, linkPath url = '/' :: rest →
      ∃ server place, rest = server ++ '/' :: place ∧ '/' ∉ server
        ∧ isMalformedServer (escapeNumberSigns server) = false ∧ link.IsNamedBy place := by
    intro rest hrest
    rw [linkPath_eq] at hrest
    cases htarget : (url.drop deepLinkStart.length).filter counts with
    | nil =>
        rw [htarget] at hrest
        exact nomatch hrest
    | cons c cs =>
        rw [htarget, List.takeWhile_cons] at hrest
        split at hrest
        · obtain ⟨rfl, rfl⟩ := List.cons.inj hrest
          exact isNamedBy_behind_server ha hsegments htarget
        · exact nomatch hrest
  refine ⟨hstart, url_of_ofUrl? h, ⟨?_, ?_⟩, hserver⟩
  · intro hnamed hslash
    obtain ⟨rest, hrest⟩ := List.head?_eq_some_iff.mp hslash
    obtain ⟨server, place, rfl, -⟩ := hserver rest hrest
    exact not_isNamedBy_server link server place (hrest ▸ hnamed)
  · intro hfirst
    rw [linkPath_eq] at hfirst ⊢
    exact isNamedBy_of_head?_ne ha hsegments hfirst

/-- The name of a server in front of the id of a user. -/
def serverInFront : List Char :=
  "https://matrix.to/#//n/@a:b?x".toList

/-- A link to a user is read from the address, though its path does not name the user: it
    has two slashes in it, and names the user only behind a server. -/
theorem isNamedBy_serverInFront :
    ofUrl? serverInFront = some (.user "@a:b" (String.ofList serverInFront))
      ∧ ¬(DeepLink.user "@a:b" (String.ofList serverInFront)).IsNamedBy (linkPath serverInFront)
      ∧ ∃ server place, "n/@a:b".toList = server ++ '/' :: place ∧ '/' ∉ server
        ∧ isMalformedServer (escapeNumberSigns server) = false
        ∧ (DeepLink.user "@a:b" (String.ofList serverInFront)).IsNamedBy place := by
  have hread : ofUrl? serverInFront = some (.user "@a:b" (String.ofList serverInFront)) := by
    decide
  have hpath : linkPath serverInFront = '/' :: "n/@a:b".toList := by decide
  obtain ⟨-, -, hnamed, hserver⟩ := isNamedBy_of_ofUrl serverInFront _ hread
  exact ⟨hread, fun h => hnamed.mp h (by rw [hpath]; rfl), hserver _ hpath⟩

end DeepLink

end MessageBody
