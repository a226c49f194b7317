import Mathlib.Data.List.Basic
import MessageBody.Link.DeepLink
import MessageBody.Proofs.PercentEncoding

/-! # The addresses of deep links

    A deep link is written as an address by encoding its ids one by one.  An encoded
    text holds none of the characters at which an address is cut, so the address falls
    into the parts that were put together, and each of them is read back. -/

namespace MessageBody

/-! ## Cutting texts -/

namespace Text

variable {sep : Char} {s before : List Char}

theorem cutAt?_eq_none (h : sep ∉ s) : cutAt? sep s = none := by
  induction s with
  | nil => rfl
  | cons c cs ih =>
      obtain ⟨hc, hcs⟩ := List.ne_and_not_mem_of_not_mem_cons h
      rw [cutAt?, if_neg (Ne.symm hc), ih hcs]
      rfl

/-- A text is cut at the first sign. -/
theorem cutAt?_append (h : sep ∉ before) (after : List Char) :
    cutAt? sep (before ++ sep :: after) = some (before, after) := by
  induction before with
  | nil => exact if_pos rfl
  | cons c cs ih =>
      obtain ⟨hc, hcs⟩ := List.ne_and_not_mem_of_not_mem_cons h
      rw [List.cons_append, cutAt?, if_neg (Ne.symm hc), ih hcs]
      rfl

theorem splitAtChar_of_not_mem (h : sep ∉ s) : splitAtChar sep s = [s] := by
  induction s with
  | nil => rfl
  | cons c cs ih =>
      obtain ⟨hc, hcs⟩ := List.ne_and_not_mem_of_not_mem_cons h
      rw [splitAtChar, if_neg (Ne.symm hc), ih hcs]

/-- The first part ends at the first sign. -/
theorem splitAtChar_append (h : sep ∉ before) (after : List Char) :
    splitAtChar sep (before ++ sep :: after) = before :: splitAtChar sep after := by
  induction before with
  | nil => exact if_pos rfl
  | cons c cs ih =>
      obtain ⟨hc, hcs⟩ := List.ne_and_not_mem_of_not_mem_cons h
      rw [List.cons_append, splitAtChar, if_neg (Ne.symm hc), ih hcs]

/-- Pieces with a separator in front of each but the first are cut apart again. -/
theorem splitAtChar_flatMap {first : List Char} {rest : List (List Char)} (hfirst : sep ∉ first)
    (hrest : ∀ piece ∈ rest, sep ∉ piece) :
    splitAtChar sep (first ++ rest.flatMap (sep :: ·)) = first :: rest := by
  induction rest generalizing first with
  | nil =>
      rw [List.flatMap_nil, List.append_nil]
      exact splitAtChar_of_not_mem hfirst
  | cons piece rest ih =>
      obtain ⟨hpiece, hrest⟩ := List.forall_mem_cons.mp hrest
      rw [List.flatMap_cons, List.cons_append, splitAtChar_append hfirst, ih hpiece hrest]

end Text

/-! ## Writing links -/

namespace Link

/-- The field of a query that names a server. -/
def viaField (server : String) : List Char :=
  "via=".toList ++ percentEncode server.toList

/-- The query that names servers, empty when there are none. -/
def viaQuery : List String → List Char
  | [] => []
  | server :: servers => '?' :: (viaField server ++ servers.flatMap fun s => '&' :: viaField s)

/-- A sign and something after it, with no line break. -/
def IsOpaqueId (sign : Char) (s : List Char) : Prop :=
  ∃ name, s = sign :: name ∧ name ≠ [] ∧ '\n' ∉ s

/-- A sign, and later a colon with something after it, with no line break. -/
def IsServedId (sign : Char) (s : List Char) : Prop :=
  ∃ name server, s = sign :: (name ++ ':' :: server) ∧ server ≠ [] ∧ '\n' ∉ s

/-- A room goes by its id or by an alias. -/
def IsRoom (s : List Char) : Prop :=
  IsOpaqueId '!' s ∨ IsServedId '#' s

end Link

namespace DeepLink

open Link

/-- The ids in a link have the shape of the things that they identify, and no server is
    without a name. -/
def IsShaped : DeepLink → Prop
  | .user userId _ => IsServedId '@' userId.toList
  | .room roomId via _ => IsRoom roomId.toList ∧ ∀ server ∈ via, server ≠ ""
  | .message roomId messageId via _ =>
      IsRoom roomId.toList ∧ IsOpaqueId '$' messageId.toList ∧ ∀ server ∈ via, server ≠ ""

/-- The path of the address that writes a link. -/
def writtenPath : DeepLink → List Char
  | .user userId _ => percentEncode userId.toList
  | .room roomId _ _ => percentEncode roomId.toList
  | .message roomId messageId _ _ =>
      percentEncode roomId.toList ++ '/' :: percentEncode messageId.toList

/-- The servers that a link names. -/
def via : DeepLink → List String
  | .user _ _ => []
  | .room _ via _ => via
  | .message _ _ via _ => via

/-- The address that writes a link: the ids in its path and the servers in its query,
    all of them encoded. -/
def written (link : DeepLink) : List Char :=
  deepLinkStart ++ link.writtenPath ++ viaQuery link.via

/-- The link as it is read from another address. -/
def withUrl (link : DeepLink) (url : String) : DeepLink :=
  match link with
  | .user userId _ => .user userId url
  | .room roomId via _ => .room roomId via url
  | .message roomId messageId via _ => .message roomId messageId via url

end DeepLink

namespace Link

/-! ## Shapes -/

/-- A name is plain if it has characters and no line break. -/
theorem isPlain_iff {s : List Char} : isPlain s = true ↔ s ≠ [] ∧ '\n' ∉ s := by
  simp [isPlain]

/-- A name with a colon and more behind it has a server. -/
theorem hasServer_append {name server : List Char} (hserver : server ≠ [])
    (hline : '\n' ∉ name ++ ':' :: server) : hasServer (name ++ ':' :: server) = true := by
  have hcolon : ':' ∈ (name ++ ':' :: server).dropLast := by
    obtain ⟨c, cs, rfl⟩ := List.exists_cons_of_ne_nil hserver
    rw [List.dropLast_append_cons]
    exact List.mem_append_right _ (List.mem_cons_self ..)
  rw [hasServer, List.contains_iff_mem.mpr hcolon, Bool.true_and, Bool.not_eq_true',
    ← Bool.not_eq_true, List.contains_iff_mem]
  exact hline

/-- A name with a server behind the sign of users is that of a user. -/
theorem isUserId_of_isServedId {s : List Char} (h : IsServedId '@' s) : isUserId s = true := by
  obtain ⟨name, server, rfl, hserver, hline⟩ := h
  exact hasServer_append hserver fun hmem => hline (List.mem_cons_of_mem _ hmem)

/-- The shape of a room is read as a room. -/
theorem isRoomId_of_isRoom {s : List Char} (h : IsRoom s) : isRoomId s = true := by
  rcases h with ⟨name, rfl, hname, hline⟩ | ⟨name, server, rfl, hserver, hline⟩
  · exact isPlain_iff.mpr ⟨hname, fun hmem => hline (List.mem_cons_of_mem _ hmem)⟩
  · exact hasServer_append hserver fun hmem => hline (List.mem_cons_of_mem _ hmem)

/-- A name behind the sign of messages is that of a message. -/
theorem isMessageId_of_isOpaqueId {s : List Char} (h : IsOpaqueId '$' s) :
    isMessageId s = true := by
  obtain ⟨name, rfl, hname, hline⟩ := h
  exact isPlain_iff.mpr ⟨hname, fun hmem => hline (List.mem_cons_of_mem _ hmem)⟩

/-- A room is no user. -/
theorem not_isUserId_of_isRoom {s : List Char} (h : IsRoom s) : isUserId s = false := by
  rcases h with ⟨name, rfl, -⟩ | ⟨name, server, rfl, -⟩
  · rfl
  · rfl

/-! ## The characters of an address -/

/-- A text with no characters in it but unreserved ones and the given signs. -/
def HoldsOnly (signs s : List Char) : Prop :=
  ∀ d ∈ s, isUnreserved d = true ∨ d ∈ signs

section HoldsOnly

variable {signs more s t : List Char}

theorem HoldsOnly.append (hs : HoldsOnly signs s) (ht : HoldsOnly signs t) :
    HoldsOnly signs (s ++ t) := by
  intro d hd
  rcases List.mem_append.mp hd with hd | hd
  · exact hs d hd
  · exact ht d hd

theorem HoldsOnly.cons {c : Char} (hc : c ∈ signs) (hs : HoldsOnly signs s) :
    HoldsOnly signs (c :: s) :=
  List.forall_mem_cons.mpr ⟨Or.inr hc, hs⟩

/-- More signs may be allowed. -/
theorem HoldsOnly.mono (hs : HoldsOnly signs s) (hsigns : signs ⊆ more) : HoldsOnly more s :=
  fun d hd => (hs d hd).imp_right fun hsign => hsigns hsign

/-- A sign that is not allowed does not occur. -/
theorem HoldsOnly.not_mem {d : Char} (hs : HoldsOnly signs s) (hfree : isUnreserved d = false)
    (hsign : d ∉ signs) : d ∉ s := by
  intro hd
  rcases hs d hd with hd | hd
  · exact Bool.noConfusion (hfree.symm.trans hd)
  · exact hsign hd

end HoldsOnly

/-- An escaped text has no signs but the percent sign. -/
theorem holdsOnly_percentEncode (s : List Char) : HoldsOnly ['%'] (percentEncode s) :=
  fun d hd => (isUnreserved_or_of_mem_percentEncode d hd).imp_right List.mem_singleton.mpr

/-- A field for a server has the signs of a field. -/
theorem holdsOnly_viaField (server : String) : HoldsOnly ['%', '='] (viaField server) := by
  refine HoldsOnly.append (fun d hd => ?_) ((holdsOnly_percentEncode _).mono (by decide))
  have hkey : d ∈ ['v', 'i', 'a', '='] := hd
  simp only [List.mem_cons, List.not_mem_nil, or_false] at hkey
  rcases hkey with rfl | rfl | rfl | rfl <;> decide

/-- The fields for servers have the signs of a query. -/
theorem holdsOnly_viaQuery (via : List String) :
    HoldsOnly ['%', '=', '?', '&'] (viaQuery via) := by
  cases via with
  | nil => exact fun d hd => absurd hd List.not_mem_nil
  | cons server servers =>
      have hfield : ∀ s, HoldsOnly ['%', '=', '?', '&'] (viaField s) :=
        fun s => (holdsOnly_viaField s).mono (by decide)
      refine ((hfield server).append fun d hd => ?_).cons (by decide)
      obtain ⟨s, -, hd⟩ := List.mem_flatMap.mp hd
      exact (hfield s).cons (by decide) d hd

/-- The path of a link has no signs but those of segments and escapes. -/
theorem holdsOnly_writtenPath (link : DeepLink) : HoldsOnly ['%', '/'] link.writtenPath := by
  have hid : ∀ s, HoldsOnly ['%', '/'] (percentEncode s) :=
    fun s => (holdsOnly_percentEncode s).mono (by decide)
  cases link with
  | user userId url => exact hid _
  | room roomId via url => exact hid _
  | message roomId messageId via url => exact (hid _).append ((hid _).cons (by decide))

/-! ## Queries -/

/-- An escaped text is decoded as a field as it was. -/
theorem decodeField_percentEncode (s : List Char) : decodeField (percentEncode s) = s := by
  have hplus : (percentEncode s).map (fun c => if c = '+' then ' ' else c) = percentEncode s := by
    refine (List.map_congr_left fun c hc => if_neg ?_).trans (List.map_id _)
    rintro rfl
    exact (holdsOnly_percentEncode s).not_mem (by decide) (by decide) hc
  rw [decodeField, hplus, percentDecode_percentEncode]

/-- The field that names a server is cut into its key and the name. -/
theorem cutAt?_viaField (server : String) :
    Text.cutAt? '=' (viaField server) = some (['v', 'i', 'a'], percentEncode server.toList) :=
  Text.cutAt?_append (show '=' ∉ ['v', 'i', 'a'] by decide) _

/-- The fields of a query that names servers are one for each of them. -/
theorem fields_viaQuery {server : String} {servers : List String}
    (h : ∀ s ∈ server :: servers, s ≠ "") (path : List Char) :
    Address.fields ⟨path, viaField server ++ servers.flatMap fun s => '&' :: viaField s⟩
      = (server :: servers).map fun s => (['v', 'i', 'a'], s.toList) := by
  -- separators in a name are escaped, so the query is cut only where it was put together
  have hseparate : ∀ s : String, '&' ∉ viaField s :=
    fun s => (holdsOnly_viaField s).not_mem (by decide) (by decide)
  have hpieces : Text.splitAtChar '&'
      (viaField server ++ servers.flatMap fun s => '&' :: viaField s)
        = (server :: servers).map viaField := by
    rw [show (servers.flatMap fun s => '&' :: viaField s)
      = (servers.map viaField).flatMap ('&' :: ·) by rw [List.flatMap_map]]
    refine Text.splitAtChar_flatMap (hseparate server) fun piece hpiece => ?_
    obtain ⟨s, -, rfl⟩ := List.mem_map.mp hpiece
    exact hseparate s
  rw [Address.fields, hpieces, List.filterMap_map, ← List.filterMap_eq_map]
  refine List.filterMap_congr fun s hs => ?_
  have hname : (percentEncode s.toList).isEmpty = false :=
    List.isEmpty_eq_false_iff.mpr (percentEncode_ne_nil (mt String.toList_eq_nil_iff.mp (h s hs)))
  simp only [Function.comp_apply, cutAt?_viaField, hname, decodeField_percentEncode]
  rfl

/-- The servers that a query names are read in their order. -/
theorem servers_ofPath_viaQuery {path : List Char} {via : List String} (hpath : '?' ∉ path)
    (h : ∀ s ∈ via, s ≠ "") : DeepLink.servers (Address.ofPath (path ++ viaQuery via)) = via := by
  cases via with
  | nil =>
      have hnone : Text.cutAt? '?' (path ++ viaQuery []) = none :=
        Text.cutAt?_eq_none (by rwa [viaQuery, List.append_nil])
      rw [Address.ofPath, hnone]
      rfl
  | cons server servers =>
      rw [Address.ofPath, viaQuery, Text.cutAt?_append hpath]
      dsimp only
      rw [DeepLink.servers, fields_viaQuery h, List.filterMap_map]
      refine (List.filterMap_congr fun s _ => ?_).trans List.filterMap_some
      simp only [Function.comp_apply, if_true, String.ofList_toList]

/-- The path ends where the query begins. -/
theorem path_ofPath_viaQuery {path : List Char} (hpath : '?' ∉ path) (via : List String) :
    (Address.ofPath (path ++ viaQuery via)).path = path := by
  cases via with
  | nil =>
      rw [viaQuery, List.append_nil, Address.ofPath, Text.cutAt?_eq_none hpath]
  | cons server servers =>
      rw [Address.ofPath, viaQuery, Text.cutAt?_append hpath]

/-! ## Addresses -/

/-- A text without number signs has none to escape. -/
theorem escapeNumberSigns_eq_self {s : List Char} (h : '#' ∉ s) : escapeNumberSigns s = s := by
  induction s with
  | nil => rfl
  | cons c cs ih =>
      obtain ⟨hc, hcs⟩ := List.ne_and_not_mem_of_not_mem_cons h
      rw [escapeNumberSigns] at ih
      rw [escapeNumberSigns, List.flatMap_cons, if_neg (Ne.symm hc), ih hcs]
      rfl

/-- An address with one slash in front and no space in it is read as it stands. -/
theorem parse?_cons {first : Char} {rest : List Char} (hserver : first ≠ '/')
    (hspace : ∀ d ∈ ['\t', '\n', '\r'], d ∉ first :: rest) :
    Address.parse? ('/' :: first :: rest) = some (Address.ofPath ('/' :: first :: rest)) := by
  have hkept : ('/' :: first :: rest).filter (fun c => c != '\t' && c != '\n' && c != '\r')
      = '/' :: first :: rest := by
    refine List.filter_eq_self.mpr (List.forall_mem_cons.mpr ⟨by decide, fun c hc => ?_⟩)
    have hne : ∀ d ∈ ['\t', '\n', '\r'], c ≠ d := by
      rintro d hd rfl
      exact hspace c hd hc
    simp only [Bool.and_eq_true, bne_iff_ne]
    exact ⟨⟨hne _ (by decide), hne _ (by decide)⟩, hne _ (by decide)⟩
  rw [Address.parse?]
  simp only [hkept]
  split
  · rename_i heq
    simp only [List.cons.injEq, true_and] at heq
    exact absurd heq.1 hserver
  · rfl

/-- The first thing in an encoded id is the sign of its kind, which is escaped. -/
theorem percentEncode_sign {sign : Char} (hsign : sign ∈ ['@', '!', '#', '$']) (s : List Char) :
    ∃ rest, percentEncode (sign :: s) = '%' :: rest := by
  rw [percentEncode, List.flatMap_cons]
  simp only [List.mem_cons, List.not_mem_nil, or_false] at hsign
  rcases hsign with rfl | rfl | rfl | rfl <;> exact ⟨_, rfl⟩

end Link

namespace DeepLink

open Link

/-- The path of a link begins with an escape, for its first character is a sign. -/
theorem writtenPath_eq_cons {link : DeepLink} (h : link.IsShaped) :
    ∃ rest, link.writtenPath = '%' :: rest := by
  -- ids begin with a sign, and a sign is always escaped
  have hroom : ∀ s : List Char, IsRoom s → ∃ rest, percentEncode s = '%' :: rest := by
    rintro s (⟨name, rfl, -⟩ | ⟨name, server, rfl, -⟩)
    · exact percentEncode_sign (by decide) _
    · exact percentEncode_sign (by decide) _
  cases link with
  | user userId url =>
      obtain ⟨name, server, hid, -⟩ := h
      rw [writtenPath, hid]
      exact percentEncode_sign (by decide) _
  | room roomId via url => exact hroom _ h.1
  | message roomId messageId via url =>
      obtain ⟨rest, hrest⟩ := hroom _ h.1
      exact ⟨_, by rw [writtenPath, hrest, List.cons_append]⟩

/-- No server of a link is without a name. -/
theorem via_ne_empty {link : DeepLink} (h : link.IsShaped) : ∀ server ∈ link.via, server ≠ "" := by
  cases link with
  | user userId url => exact fun server hserver => absurd hserver List.not_mem_nil
  | room roomId via url => exact h.2
  | message roomId messageId via url => exact h.2.2

/-- What stands after the start of the address is read as its path and its query. -/
theorem parse?_written {link : DeepLink} (h : link.IsShaped) :
    Address.parse? ('/' :: escapeNumberSigns (link.writtenPath ++ viaQuery link.via))
      = some (Address.ofPath (('/' :: link.writtenPath) ++ viaQuery link.via)) := by
  have honly : HoldsOnly ['/', '%', '=', '?', '&'] (link.writtenPath ++ viaQuery link.via) :=
    ((holdsOnly_writtenPath link).mono (by decide)).append
      ((holdsOnly_viaQuery link.via).mono (by decide))
  obtain ⟨rest, hrest⟩ := writtenPath_eq_cons h
  rw [escapeNumberSigns_eq_self (honly.not_mem (by decide) (by decide))]
  rw [hrest, List.cons_append] at honly ⊢
  refine parse?_cons (by decide) fun d hd => ?_
  simp only [List.mem_cons, List.not_mem_nil, or_false] at hd
  rcases hd with rfl | rfl | rfl <;> exact honly.not_mem (by decide) (by decide)

/-- The segments of the path are the ids. -/
theorem ofSegments?_writtenPath {link : DeepLink} (h : link.IsShaped) (query : List Char)
    (url : String) :
    ofSegments? url link.via (Address.segments ⟨'/' :: link.writtenPath, query⟩)
      = some (link.withUrl url) := by
  have hslash : ∀ s, '/' ∉ percentEncode s :=
    fun s => (holdsOnly_percentEncode s).not_mem (by decide) (by decide)
  -- the slash in front has nothing before it
  have hfront : ∀ s, Text.splitAtChar '/' ('/' :: s) = [] :: Text.splitAtChar '/' s :=
    Text.splitAtChar_append (show '/' ∉ ([] : List Char) from List.not_mem_nil)
  rw [Address.segments, hfront, List.drop_one, List.tail_cons]
  cases link with
  | user userId url =>
      rw [writtenPath, Text.splitAtChar_of_not_mem (hslash _), List.map_singleton,
        percentDecode_percentEncode, ofSegments?, if_pos (isUserId_of_isServedId h),
        String.ofList_toList]
      rfl
  | room roomId via url =>
      have huser : ¬isUserId roomId.toList = true := by
        rw [not_isUserId_of_isRoom h.1]
        exact Bool.false_ne_true
      rw [writtenPath, Text.splitAtChar_of_not_mem (hslash _), List.map_singleton,
        percentDecode_percentEncode, ofSegments?, if_neg huser, if_pos (isRoomId_of_isRoom h.1),
        String.ofList_toList]
      rfl
  | message roomId messageId via url =>
      have hshape : (isRoomId roomId.toList && isMessageId messageId.toList) = true := by
        rw [isRoomId_of_isRoom h.1, isMessageId_of_isOpaqueId h.2.1, Bool.and_self]
      rw [writtenPath, Text.splitAtChar_append (hslash _), Text.splitAtChar_of_not_mem (hslash _),
        List.map_cons, List.map_singleton, percentDecode_percentEncode,
        percentDecode_percentEncode, ofSegments?, if_pos hshape, String.ofList_toList,
        String.ofList_toList]
      rfl

/-- **The address that writes a link is read as that link**, whatever characters its ids
    and the names of its servers have. -/
theorem ofUrl_written (link : DeepLink) (h : link.IsShaped) :
    ofUrl? link.written = some (link.withUrl (String.ofList link.written)) := by
  -- question marks in the ids are escaped, so the first one begins the query
  have hquestion : '?' ∉ '/' :: link.writtenPath :=
    List.not_mem_cons_of_ne_of_not_mem (by decide)
      ((holdsOnly_writtenPath link).not_mem (by decide) (by decide))
  have hstart : deepLinkStart.isPrefixOf link.written = true := by
    rw [List.isPrefixOf_iff_prefix, written, List.append_assoc]
    exact List.prefix_append _ _
  have htarget : link.written.drop deepLinkStart.length
      = link.writtenPath ++ viaQuery link.via := by
    rw [written, List.append_assoc, List.drop_left]
  rw [ofUrl?, if_pos hstart]
  simp only [htarget, parse?_written h, servers_ofPath_viaQuery hquestion (via_ne_empty h)]
  have hpath := path_ofPath_viaQuery hquestion link.via
  rw [Address.segments, hpath]
  exact ofSegments?_writtenPath h [] _

/-- A message whose room, whose id and whose servers hold the signs at which addresses are
    cut. -/
def messageWithSigns : DeepLink :=
  .message "#a/?%+:ü" "$😀&" ["b&=", " "] ""

/-- A message whose names are full of signs is read back. -/
theorem ofUrl_written_messageWithSigns :
    messageWithSigns.IsShaped
      ∧ ofUrl? messageWithSigns.written
        = some (messageWithSigns.withUrl (String.ofList messageWithSigns.written))
      ∧ String.ofList messageWithSigns.written
        = "https://matrix.to/#/%23a%2F%3F%25%2B%3A%C3%BC/%24%F0%9F%98%80%26" ++
          "?via=b%26%3D&via=%20" := by
  have hshaped : messageWithSigns.IsShaped := by
    refine ⟨Or.inr ⟨"a/?%+".toList, "ü".toList, ?_, ?_, ?_⟩, ⟨"😀&".toList, ?_, ?_, ?_⟩, ?_⟩ <;>
      decide
  exact ⟨hshaped, ofUrl_written messageWithSigns hshaped, by decide⟩

end DeepLink

end MessageBody
