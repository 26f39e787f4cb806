import VoxTree.DirectorySync
import VoxTree.Lib.TreeMap
import VoxTree.Proofs.Json
import VoxTree.Proofs.WinHttp

/-!
# The directory on the wire

The adapter writes a directory as one JSON value, and the client reads the value back and checks it
anew. Of a directory that hangs together it takes exactly the view, where its nodes have names and
different identifiers (`readDirectory_answered`).
-/

namespace VoxTree

open Results

/-! ## The body as a value -/

namespace JsonValue

open Network

def nodeValue (node : DirectoryNode) : JsonValue :=
  ofMembers
    [("node_id", .string node.nodeId),
      ("node_type", .string (bytes (directoryNodeTypeName node.nodeType))),
      ("parent_node_id", node.parentNodeId.elim .null .string),
      ("display_name", .string node.displayName),
      ("sort_index", .unsigned node.sortIndex)]

def publicRoleValue (role : PublicDirectoryRole) : JsonValue :=
  ofMembers
    [("role_id", .string role.roleId.value), ("display_name", .string role.displayName)]

def participantValue (participant : DirectoryParticipant) : JsonValue :=
  ofMembers
    [("player_id", .string participant.playerId.value),
      ("display_name", .string participant.displayName),
      ("primary_team_id", .string participant.primaryTeamId.value),
      ("public_role_ids", .array (participant.publicRoleIds.map fun role => .string role.value))]

def directoryValue (snapshot : DirectorySnapshot) : JsonValue :=
  ofMembers
    [("api_version", .string (bytes "v1")),
      ("directory_version", .unsigned snapshot.version),
      ("group_id", .string snapshot.groupId.value),
      ("nodes", .array (snapshot.nodes.map nodeValue)),
      ("public_roles", .array (snapshot.publicRoles.map publicRoleValue)),
      ("participants", .array (snapshot.participants.map participantValue))]

theorem encode_nodeValue (node : DirectoryNode) :
    (nodeValue node).encode = jsonObject
      [("node_id", escapeJson node.nodeId),
        ("node_type", jsonText (directoryNodeTypeName node.nodeType)),
        ("parent_node_id", (node.parentNodeId.map escapeJson).getD (bytes "null")),
        ("display_name", escapeJson node.displayName),
        ("sort_index", decimal node.sortIndex)] := by
  rw [nodeValue, encode_ofMembers]
  cases node.parentNodeId <;> rfl

theorem encode_participantValue (participant : DirectoryParticipant) :
    (participantValue participant).encode = jsonObject
      [("player_id", escapeJson participant.playerId.value),
        ("display_name", escapeJson participant.displayName),
        ("primary_team_id", escapeJson participant.primaryTeamId.value),
        ("public_role_ids",
          jsonArray (participant.publicRoleIds.map fun role => escapeJson role.value))] := by
  rw [participantValue, encode_ofMembers]
  simp only [List.map_cons, List.map_nil, encode_array, List.map_map]
  rfl

/-- The adapter writes the value. -/
theorem encode_directoryValue (snapshot : DirectorySnapshot) :
    (directoryValue snapshot).encode = directoryBody snapshot := by
  rw [directoryValue, encode_ofMembers]
  simp only [List.map_cons, List.map_nil, encode_array, List.map_map, Function.comp_def,
    encode_nodeValue, encode_participantValue, publicRoleValue, encode_ofMembers]
  rfl

/-- The numbers of a directory are of the types the source gives them. -/
structure Fits (snapshot : DirectorySnapshot) : Prop where
  version : snapshot.version < UInt64.size
  sortIndex : ∀ node ∈ snapshot.nodes, node.sortIndex < UInt64.size

theorem readable_directoryValue {snapshot : DirectorySnapshot} (h : Fits snapshot) :
    (directoryValue snapshot).Readable := by
  have hnode : ∀ node ∈ snapshot.nodes, (nodeValue node).Readable := by
    intro node hnode
    refine readable_ofMembers (by simp) ?_
    simp only [List.forall_mem_cons, List.not_mem_nil, false_imp_iff, implies_true, and_true]
    refine ⟨trivial, trivial, ?_, trivial, h.sortIndex node hnode⟩
    cases node.parentNodeId <;> trivial
  have hrole : ∀ role ∈ snapshot.publicRoles, (publicRoleValue role).Readable := by
    intro role _
    refine readable_ofMembers (by simp) ?_
    simp only [List.forall_mem_cons, List.not_mem_nil, false_imp_iff, implies_true, and_true]
    exact ⟨trivial, trivial⟩
  have hparticipant : ∀ participant ∈ snapshot.participants,
      (participantValue participant).Readable := by
    intro participant _
    refine readable_ofMembers (by simp) ?_
    simp only [List.forall_mem_cons, List.not_mem_nil, false_imp_iff, implies_true, and_true]
    refine ⟨trivial, trivial, trivial, readableElements_iff.2 ?_⟩
    simp only [List.mem_map]
    rintro _ ⟨role, -, rfl⟩
    trivial
  refine readable_ofMembers (by simp) ?_
  simp only [List.forall_mem_cons, List.not_mem_nil, false_imp_iff, implies_true, and_true]
  refine ⟨trivial, h.version, trivial, ?_, ?_, ?_⟩ <;>
    simp only [Readable, readableElements_iff, List.forall_mem_map] <;>
    assumption

end JsonValue

/-! ## The rounds of the client -/

namespace Client

open JsonValue

theorem parseDirectoryNodeKind_name (nodeType : DirectoryNodeType) :
    parseDirectoryNodeKind (bytes (Network.directoryNodeTypeName nodeType))
      = some nodeType.kind := by
  cases nodeType <;> simp [parseDirectoryNodeKind, Network.directoryNodeTypeName,
    bytes_injective.eq_iff, DirectoryNodeType.kind]

/-- What the server lists of every node: a group and no other node is without a parent. -/
structure Placed (node : DirectoryNode) : Prop where
  named : node.nodeId ≠ []
  parent : node.parentNodeId ≠ some []
  level : node.nodeType = .group ↔ node.parentNodeId = none

def addKind (kinds : NodeKinds) (node : DirectoryNode) : NodeKinds :=
  kinds.insert node.nodeId node.nodeType.kind

theorem readParent_nodeValue {node : DirectoryNode} (h : Placed node) :
    readParent (nodeValue node) = .ok node.parentNodeId := by
  have hparent := h.parent
  unfold readParent
  rcases hnone : node.parentNodeId with _ | parent
  · simp [nodeValue, field_ofMembers, hnone, string?, null?]
  · have hnamed : parent ≠ [] := fun heq => hparent (by rw [hnone, heq])
    simp [nodeValue, field_ofMembers, hnone, string?, hnamed]

theorem readNode_nodeValue {node : DirectoryNode} (h : Placed node) (views : List DirectoryNodeView)
    (kinds : NodeKinds) :
    readNode (views, kinds) (nodeValue node)
      = if node.displayName = [] ∨ node.nodeId ∈ kinds then
          .error (invalidResponse "directory node is invalid or duplicated")
        else .ok (views ++ [node.view], addKind kinds node) := by
  have hlevel : node.nodeType.kind = .group ↔ node.parentNodeId = none := by
    rw [← h.level]
    cases node.nodeType <;> simp [DirectoryNodeType.kind]
  unfold readNode
  rw [readParent_nodeValue h]
  simp only [nodeValue, field_ofMembers]
  simp [string?, unsigned?, parseDirectoryNodeKind_name, h.named, hlevel, DirectoryNode.view,
    addKind]

/-- The loop over the nodes goes through where all have names and different identifiers. -/
theorem foldlM_readNode : ∀ {nodes : List DirectoryNode}, (∀ node ∈ nodes, Placed node) →
    ∀ (views : List DirectoryNodeView) (kinds : NodeKinds) (r : List DirectoryNodeView × NodeKinds),
      (nodes.map nodeValue).foldlM readNode (views, kinds) = .ok r ↔
        (∀ node ∈ nodes, node.displayName ≠ []) ∧ (nodes.map DirectoryNode.nodeId).Nodup
          ∧ (∀ node ∈ nodes, node.nodeId ∉ kinds)
          ∧ (views ++ nodes.map DirectoryNode.view, nodes.foldl addKind kinds) = r
  | [], _, views, kinds, r => by
    show Except.ok (views, kinds) = .ok r ↔ _
    simp
  | node :: nodes, h, views, kinds, r => by
    have hnode := h node List.mem_cons_self
    have hnodes : ∀ node ∈ nodes, Placed node := fun other hother =>
      h other (List.mem_cons_of_mem node hother)
    rw [List.map_cons, List.foldlM_cons, readNode_nodeValue hnode]
    split_ifs with hrefused
    · refine iff_of_false nofun ?_
      rintro ⟨hnames, -, hfresh, -⟩
      rcases hrefused with hempty | hknown
      · exact hnames node List.mem_cons_self hempty
      · exact hfresh node List.mem_cons_self hknown
    · rw [not_or] at hrefused
      obtain ⟨hname, hfresh⟩ := hrefused
      show (nodes.map nodeValue).foldlM readNode (views ++ [node.view], addKind kinds node) = .ok r
        ↔ _
      rw [foldlM_readNode hnodes]
      have hkinds : (∀ other ∈ nodes, other.nodeId ∉ addKind kinds node)
          ↔ node.nodeId ∉ nodes.map DirectoryNode.nodeId
            ∧ ∀ other ∈ nodes, other.nodeId ∉ kinds := by
        simp only [addKind, Std.ExtTreeMap.mem_insert, Std.LawfulEqOrd.compare_eq_iff_eq, not_or,
          List.mem_map, not_exists, not_and]
        exact ⟨fun h => ⟨fun other hother heq => (h other hother).1 heq.symm,
          fun other hother => (h other hother).2⟩,
          fun h other hother => ⟨fun heq => h.1 other hother heq.symm, h.2 other hother⟩⟩
      have happend : views ++ [node.view] ++ nodes.map DirectoryNode.view
          = views ++ (node :: nodes).map DirectoryNode.view := by simp
      rw [hkinds, happend]
      simp only [List.forall_mem_cons, List.map_cons, List.nodup_cons, List.foldl_cons]
      tauto

theorem readPublicRole_publicRoleValue {role : PublicDirectoryRole} (hname : role.displayName ≠ [])
    {seen : List PublicRoleView} (hfresh : role.roleId.value ∉ seen.map PublicRoleView.roleId) :
    readPublicRole seen (publicRoleValue role) = .ok (seen ++ [role.view]) := by
  have hseen : ∀ other ∈ seen, other.roleId ≠ role.roleId.value := fun other hother heq =>
    hfresh (List.mem_map.2 ⟨other, hother, heq⟩)
  unfold readPublicRole
  simp only [publicRoleValue, field_ofMembers]
  simp [string?, role.roleId.nonempty, hname, PublicDirectoryRole.view]
  exact hseen

theorem readParticipantRole_string {roles : List PublicRoleView} {role : RoleId}
    (hknown : role.value ∈ roles.map PublicRoleView.roleId) {seen : List Bytes}
    (hfresh : role.value ∉ seen) :
    readParticipantRole roles seen (.string role.value) = .ok (seen ++ [role.value]) := by
  obtain ⟨known, hmem, hvalue⟩ := List.mem_map.1 hknown
  have hlisted : (roles.any fun known => known.roleId = role.value) = true :=
    List.any_eq_true.2 ⟨known, hmem, by simpa using hvalue⟩
  unfold readParticipantRole
  simp [string?, hlisted, hfresh]

theorem readParticipant_participantValue {kinds : NodeKinds} {roles : List PublicRoleView}
    {participant : DirectoryParticipant} (hname : participant.displayName ≠ [])
    (hteam : kinds[participant.primaryTeamId.value]? = some .team)
    (hassigned : participant.publicRoleIds.Nodup
      ∧ ∀ role ∈ participant.publicRoleIds, role.value ∈ roles.map PublicRoleView.roleId)
    {seen : List DirectoryParticipantView}
    (hfresh : participant.playerId.value ∉ seen.map DirectoryParticipantView.playerId) :
    readParticipant kinds roles seen (participantValue participant)
      = .ok (seen ++ [participant.view]) := by
  have hseen : (seen.any fun other => other.playerId = participant.playerId.value) = false := by
    rw [List.any_eq_false]
    exact fun other hother heq => hfresh (List.mem_map.2 ⟨other, hother, by simpa using heq⟩)
  have hroles : (participant.publicRoleIds.map fun role => JsonValue.string role.value).foldlM
      (readParticipantRole roles) [] = .ok (participant.publicRoleIds.map StrongId.value) := by
    rw [List.foldlM_map]
    refine foldlM_collect StrongId.value id (fun seen role hrole hfresh =>
      readParticipantRole_string (hassigned.2 role hrole) (by simpa using hfresh)) ?_
    simpa using hassigned.1.map StrongId.value_injective
  unfold readParticipant
  simp only [participantValue, field_ofMembers]
  simp [string?, array?, participant.playerId.nonempty, hname, hteam, hseen, hroles,
    DirectoryParticipant.view]

/-! ## The whole directory -/

/-- What every directory of the server has that the client asks for. -/
structure Coherent (a : DirectorySnapshot) : Prop where
  version : 1 ≤ a.version
  placed : ∀ node ∈ a.nodes, Placed node
  root : ∃ name rest, a.nodes = ⟨a.groupId.value, .group, none, name, 0⟩ :: rest
    ∧ ∀ node ∈ rest, node.nodeType ≠ .group
  parents : ∀ node ∈ a.nodes, ∀ parent, node.parentNodeId = some parent →
    ∃ above ∈ a.nodes, above.nodeId = parent
      ∧ above.nodeType = if node.nodeType = .team then .specialization else .group
  limit : a.participants.length ≤ 200
  rolesNamed : ∀ role ∈ a.publicRoles, role.displayName ≠ []
  rolesUnique : (a.publicRoles.map PublicDirectoryRole.roleId).Nodup
  participantsNamed : ∀ participant ∈ a.participants, participant.displayName ≠ []
  participantsUnique : (a.participants.map DirectoryParticipant.playerId).Nodup
  teams : ∀ participant ∈ a.participants, ∃ node ∈ a.nodes,
    node.nodeId = participant.primaryTeamId.value ∧ node.nodeType = .team
  assigned : ∀ participant ∈ a.participants, participant.publicRoleIds.Nodup
    ∧ ∀ role ∈ participant.publicRoleIds, role ∈ a.publicRoles.map PublicDirectoryRole.roleId

/-- The nodes the client can tell apart and name. -/
structure Legible (a : DirectorySnapshot) : Prop where
  named : ∀ node ∈ a.nodes, node.displayName ≠ []
  distinct : (a.nodes.map DirectoryNode.nodeId).Nodup

variable {a : DirectorySnapshot}

def kindsOf (a : DirectorySnapshot) : NodeKinds := a.nodes.foldl addKind ∅

theorem getElem?_kindsOf (h : (a.nodes.map DirectoryNode.nodeId).Nodup) {node : DirectoryNode}
    (hnode : node ∈ a.nodes) : (kindsOf a)[node.nodeId]? = some node.nodeType.kind :=
  TreeMap.getElem?_foldl_insert_of_mem h hnode

theorem size_kindsOf (h : (a.nodes.map DirectoryNode.nodeId).Nodup) :
    (kindsOf a).size = a.nodes.length := by
  have hsize : (kindsOf a).size = (∅ : NodeKinds).size + a.nodes.length :=
    TreeMap.size_foldl_insert h fun _ _ => Std.ExtTreeMap.not_mem_empty
  rw [hsize, Std.ExtTreeMap.size_empty, Nat.zero_add]

theorem checkRoot_coherent (h : Coherent a) (hdistinct : (a.nodes.map DirectoryNode.nodeId).Nodup) :
    checkRoot a.groupId.value (a.nodes.map DirectoryNode.view) (kindsOf a) = .ok () := by
  obtain ⟨name, rest, hnodes, hrest⟩ := h.root
  have hroot := getElem?_kindsOf hdistinct (hnodes ▸ List.mem_cons_self)
  have hothers : (rest.map DirectoryNode.view).countP (fun node => node.kind = .group) = 0 := by
    rw [List.countP_eq_zero]
    intro view hview
    obtain ⟨node, hnode, rfl⟩ := List.mem_map.1 hview
    have hkind : node.nodeType.kind ≠ .group := by
      have hne := hrest node hnode
      cases htype : node.nodeType <;> simp_all [DirectoryNodeType.kind]
    exact decide_eq_false hkind ▸ Bool.false_ne_true
  have hcount : (a.nodes.map DirectoryNode.view).countP (fun node => node.kind = .group) = 1 := by
    rw [hnodes, List.map_cons, List.countP_cons, hothers]
    rfl
  unfold checkRoot
  rw [if_neg]
  rw [size_kindsOf hdistinct, List.length_map, hcount]
  simpa [DirectoryNodeType.kind] using hroot

theorem checkParent_coherent (h : Coherent a)
    (hdistinct : (a.nodes.map DirectoryNode.nodeId).Nodup) :
    (a.nodes.map DirectoryNode.view).forM (checkParent (kindsOf a)) = .ok () := by
  refine forM_ok fun view hview => ?_
  obtain ⟨node, hnode, rfl⟩ := List.mem_map.1 hview
  unfold checkParent
  rcases hparent : node.parentNodeId with _ | parent
  · simp [DirectoryNode.view, hparent]
  · obtain ⟨above, habove, hid, htype⟩ := h.parents node hnode parent hparent
    have hkind := getElem?_kindsOf hdistinct habove
    rw [hid, htype] at hkind
    have hexpected : (if node.nodeType = .team then DirectoryNodeType.specialization
        else .group).kind = if node.view.kind = .team then .specialization else .group := by
      cases htype : node.nodeType <;> simp [DirectoryNode.view, DirectoryNodeType.kind, htype]
    have hview : node.view.parentNodeId = some parent := hparent
    rw [hview]
    dsimp only
    rw [hkind, hexpected, if_neg (by simp)]

def fieldsOf (a : DirectorySnapshot) : DirectoryFields where
  version := a.version
  groupId := a.groupId.value
  nodes := a.nodes.map nodeValue
  roles := a.publicRoles.map publicRoleValue
  participants := a.participants.map participantValue

theorem readDirectoryView_iff (h : Coherent a) {view : DirectoryView} :
    readDirectoryView (fieldsOf a) = .ok view ↔ Legible a ∧ a.view = view := by
  have hnodes := foldlM_readNode h.placed [] ∅
  simp only [Std.ExtTreeMap.not_mem_empty, not_false_eq_true, implies_true, true_and,
    List.nil_append] at hnodes
  have hlegible : ∀ {view}, readDirectoryView (fieldsOf a) = .ok view → Legible a := by
    intro view hread
    obtain ⟨r, hr, -⟩ := ok_bind hread
    obtain ⟨hnamed, hdistinct, -⟩ := (hnodes r).1 hr
    exact ⟨hnamed, hdistinct⟩
  have hview : Legible a → readDirectoryView (fieldsOf a) = .ok a.view := by
    rintro ⟨hnamed, hdistinct⟩
    have hread := (hnodes _).2 ⟨hnamed, hdistinct, rfl⟩
    have hroles : (a.publicRoles.map publicRoleValue).foldlM readPublicRole []
        = .ok (a.publicRoles.map PublicDirectoryRole.view) := by
      rw [List.foldlM_map]
      refine foldlM_collect PublicDirectoryRole.view PublicRoleView.roleId
        (fun seen role hrole hfresh =>
          readPublicRole_publicRoleValue (h.rolesNamed role hrole) hfresh) ?_
      have hunique := h.rolesUnique.map StrongId.value_injective
      rwa [List.map_map] at hunique
    have hparticipants : (a.participants.map participantValue).foldlM
        (readParticipant (kindsOf a) (a.publicRoles.map PublicDirectoryRole.view)) []
        = .ok (a.participants.map DirectoryParticipant.view) := by
      rw [List.foldlM_map]
      refine foldlM_collect DirectoryParticipant.view DirectoryParticipantView.playerId
        (fun seen participant hparticipant hfresh => ?_) ?_
      · obtain ⟨node, hnode, hid, htype⟩ := h.teams participant hparticipant
        have hteam := getElem?_kindsOf hdistinct hnode
        rw [hid, htype] at hteam
        obtain ⟨hnodup, hlisted⟩ := h.assigned participant hparticipant
        refine readParticipant_participantValue (h.participantsNamed participant hparticipant) hteam
          ⟨hnodup, fun role hrole => ?_⟩ hfresh
        obtain ⟨listed, hmem, rfl⟩ := List.mem_map.1 (hlisted role hrole)
        exact List.mem_map.2 ⟨listed.view, List.mem_map_of_mem hmem, rfl⟩
      · have hunique := h.participantsUnique.map StrongId.value_injective
        rwa [List.map_map] at hunique
    exact bind_ok hread (bind_ok (checkRoot_coherent h hdistinct)
      (bind_ok (checkParent_coherent h hdistinct) (bind_ok hroles (bind_ok hparticipants rfl))))
  constructor
  · intro hread
    have h := hlegible hread
    exact ⟨h, Except.ok.inj ((hview h).symm.trans hread)⟩
  · rintro ⟨h, rfl⟩
    exact hview h

theorem directoryFields_directoryValue (h : Coherent a) :
    directoryFields (directoryValue a) = .ok (fieldsOf a) := by
  have hversion : a.version ≠ 0 := Nat.one_le_iff_ne_zero.1 h.version
  have hlimit : ¬200 < a.participants.length := Nat.not_lt.2 h.limit
  unfold directoryFields
  simp only [directoryValue, field_ofMembers]
  simp [unsigned?, string?, array?, hversion, a.groupId.nonempty, hlimit, fieldsOf]

theorem responseRoot_answered (hfits : Fits a) :
    responseRoot (directoryAnswered a).complete = .ok (directoryValue a) := by
  have hanswered : Network.Answered (directoryAnswered a) := .directory _ _
  have hversion : responseHeader (directoryAnswered a).complete "x-hvc-api-version"
      = some (bytes "v1") := by
    unfold responseHeader
    exact congrArg (Option.map Prod.snd) (hanswered.find_apiVersion (by decide +kernel))
  have hbody : JsonParser.parse (directoryAnswered a).complete.body = some (directoryValue a) := by
    have hparse := JsonParser.parse_encode (readable_directoryValue hfits)
    rwa [encode_directoryValue] at hparse
  have hapi : field (directoryValue a) (bytes "api_version") string? = some (bytes "v1") := by
    simp [directoryValue, field_ofMembers, string?]
  have herror : (directoryAnswered a).complete.transportError = [] := rfl
  have hstatus : (directoryAnswered a).complete.statusCode = 200 := rfl
  unfold responseRoot
  simp [herror, hversion, hbody, hapi, hstatus]

/-- The client takes the view of the directory where it can tell the nodes apart and name them. -/
theorem readDirectory_answered (hfits : Fits a) (h : Coherent a) (knownVersion : Option ℕ)
    {fetch : DirectoryFetch} :
    readDirectory knownVersion (directoryAnswered a).complete = .ok fetch
      ↔ Legible a ∧ some a.view = fetch := by
  have hanswered : Network.Answered (directoryAnswered a) := .directory _ _
  have hetag : responseHeader (directoryAnswered a).complete "etag"
      = some (entityTag a.version) := by
    have hname : (bytes "etag").map lowerAscii = bytes "etag" := by decide +kernel
    unfold responseHeader
    exact congrArg (Option.map Prod.snd)
      (hanswered.find_header hname (directoryAnswered_etag a))
  have hstatus : (directoryAnswered a).complete.statusCode = 200 := rfl
  have hread : readDirectory knownVersion (directoryAnswered a).complete
      = (readDirectoryView (fieldsOf a)).map some := by
    unfold readDirectory
    rw [responseRoot_answered hfits]
    show (if _ then _ else match directoryFields (directoryValue a) with
      | .error error => _
      | .ok fields => _) = _
    rw [directoryFields_directoryValue h, hstatus]
    simp [fieldsOf, hetag]
  rw [hread]
  constructor
  · intro hok
    rcases hview : readDirectoryView (fieldsOf a) with error | view
    · simp [hview, Except.map] at hok
    · obtain ⟨hlegible, rfl⟩ := (readDirectoryView_iff h).1 hview
      exact ⟨hlegible, by simpa [hview, Except.map] using hok⟩
  · rintro ⟨hlegible, rfl⟩
    rw [(readDirectoryView_iff h).2 ⟨hlegible, rfl⟩]
    rfl

end Client

/-- What the client makes of the answer to a request for the directory. -/
theorem ControlPlaneClient.directory_answered (c : ControlPlaneClient)
    (correlationId : CorrelationId) (hsession : c.session.isSome) {a : DirectorySnapshot}
    (hfits : JsonValue.Fits a) (h : Client.Coherent a) {knownVersion : Option ℕ}
    (hknown : knownVersion ≠ some 0) {fetch : Client.DirectoryFetch} :
    c.directory (fun _ => .ok (directoryAnswered a).complete) correlationId knownVersion = .ok fetch
      ↔ Client.Legible a ∧ some a.view = fetch := by
  obtain ⟨session, hsession⟩ := Option.isSome_iff_exists.1 hsession
  unfold ControlPlaneClient.directory
  rw [hsession, Option.isNone_some, if_neg Bool.false_ne_true, if_neg hknown]
  dsimp only
  rw [c.sendSessionRequest_answered correlationId hsession]
  exact Client.readDirectory_answered hfits h knownVersion

end VoxTree
