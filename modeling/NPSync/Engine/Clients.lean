import NPSync.Engine.UploadRuns
import NPSync.Server.Answered
import NPSync.Server.Contents

/-! Clients and other requests at the same time. Each request of a client's
exchange runs its handler, call by call, between the calls of every other
client and request of any account. -/
namespace NPSync.Engine
open Library Server

/-- What becomes of one request, and the server's clock while it runs. -/
structure Dispatch where
  fate : Fate
  now : Nat

/-- The answer of the server as the client gets it. -/
def received : Fate → Response → ApiResponse
  | .answered,out => toApiResponse out
  | .garbled,out => {toApiResponse out with body := .null}
  | .lost,_ | .undelivered,_ => unreachable

abbrev ApiEvent := Library.Event ApiCall (fun _ => ApiResponse)

section
variable (u : Setup)

def requestOf (now : Nat) : ApiCall → Request
  | .createFile payload => .post (context u now) (toRequest payload)
  | .updateFile fileId payload => .put (context u now) fileId (toRequest payload)
  | .deleteFile fileId => .delete (context u now) fileId
  | .getFile fileId => .get (context u now) fileId

theorem handle_requestOf (now : Nat) (call : ApiCall) :
    handle u.plat.prim u.cfg (requestOf u now call) = handlerOf u now call := by
  cases call <;> rfl

theorem requestOf_accountID (now : Nat) (call : ApiCall) : (requestOf u now call).accountID = u.accountID := by
  cases call <;> rfl

/-- One request over the network. -/
def send (dispatch : Dispatch) (call : ApiCall) : Program Call Call.Result ApiResponse :=
  if dispatch.fate = .undelivered then .done unreachable
  else (handlerOf u dispatch.now call).bind fun out => .done (received dispatch.fate out)

/-- The calls that an exchange makes at the server; after the listed dispatches there is no network. -/
def overServer : Exchange → List Dispatch → Program Call Call.Result (Outcome × Local)
  | .done value,_ => .done value
  | .call _ next,[] => overServer (next unreachable) []
  | .call call next,dispatch::rest => (send u dispatch call).bind fun r => overServer (next r) rest

end

/-- A request to the server from any device, or a client with its exchange. -/
inductive Work where
  | request (asked : Request)
  | client (dev : Device) (accountID : Str) (exchange : Exchange) (dispatches : List Dispatch)

def Work.accountID : Work → Str
  | .request asked => asked.accountID
  | .client _ accountID _ _ => accountID

abbrev Party := {work : Work // PlainAccount work.accountID}

inductive Ended where
  | answered (response : Response)
  | finished (out : Outcome × Local)

section
variable (plat : Platform) (cfg : Config)

def partyProgram (party : Party) : Program Call Call.Result Ended :=
  match party.1 with
  | .request asked => (handle plat.prim cfg asked).bind fun response => .done (.answered response)
  | .client dev accountID exchange dispatches =>
    (overServer ⟨plat,dev,cfg,accountID⟩ exchange dispatches).bind fun out => .done (.finished out)

abbrev ClientLedger := Ledger State Call Call.Result Ended Party

/-- The ledger after a run from the empty server. -/
def clientRun (moves : List (Move Party Bool)) : ClientLedger :=
  run (Ledger.move (partyProgram plat cfg) exec) (Ledger.initial State.empty) moves

end

/-! ### Where a client stands -/

section
variable (u : Setup)

/-- The answers of the conversation are what the server made of its requests with these calls. -/
def Carried : List Dispatch → List ApiEvent → List CallEvent → Prop
  | _,[],log => log = []
  | [],event::rest,log => event.result = unreachable ∧ Carried [] rest log
  | dispatch::others,event::rest,log =>
    ∃ calls more, log = calls ++ more ∧ (send u dispatch event.op).Yields calls event.result ∧ Carried others rest more

theorem Carried.snoc {dispatches later : List Dispatch} {conversation : List ApiEvent} {log calls : List CallEvent}
    {dispatch : Dispatch} {call : ApiCall} {r : ApiResponse} (carried : Carried u dispatches conversation log)
    (left : dispatches.drop conversation.length = dispatch::later) (yields : (send u dispatch call).Yields calls r) :
    Carried u dispatches (conversation ++ [⟨call,r⟩]) (log ++ calls) := by
  induction conversation generalizing dispatches log with
  | nil =>
    cases carried
    rw [List.length_nil,List.drop_zero] at left
    subst left
    exact ⟨calls,[],by simp,yields,rfl⟩
  | cons event rest ih =>
    cases dispatches with
    | nil => simp at left
    | cons first others =>
      obtain ⟨before,more,rfl,answered,carried⟩ := carried
      exact ⟨before,more ++ calls,by simp,answered,ih carried (by simpa using left)⟩

theorem Carried.unsent {dispatches : List Dispatch} {conversation : List ApiEvent} {log : List CallEvent} {call : ApiCall}
    (carried : Carried u dispatches conversation log) (left : dispatches.drop conversation.length = []) :
    Carried u dispatches (conversation ++ [⟨call,unreachable⟩]) log := by
  induction conversation generalizing dispatches log with
  | nil =>
    cases carried
    rw [List.length_nil,List.drop_zero] at left
    subst left
    exact ⟨rfl,rfl⟩
  | cons event rest ih =>
    cases dispatches with
    | nil =>
      obtain ⟨gone,carried⟩ := carried
      exact ⟨gone,ih carried (by simp)⟩
    | cons first others =>
      obtain ⟨before,more,rfl,answered,carried⟩ := carried
      exact ⟨before,more,rfl,answered,ih carried (by simpa using left)⟩

/-- With these calls behind it, the client has had the conversation and its next
call serves the request `call`. -/
structure Requesting (exchange : Exchange) (dispatches : List Dispatch) (log : List CallEvent)
    (conversation : List ApiEvent) (call : ApiCall) (op : Call) : Prop where
  asks : ∃ next, exchange.Follows conversation (.call call next)
  calls : ∃ past here dispatch later next, log = past ++ here ∧ Carried u dispatches conversation past ∧
    dispatches.drop conversation.length = dispatch::later ∧ (send u dispatch call).Follows here (.call op next)

theorem overServer_requesting (exchange : Exchange) (dispatches : List Dispatch) :
    (overServer u exchange dispatches).Keeps
      (fun log op => ∃ conversation call, Requesting u exchange dispatches log conversation call op) [] := by
  have goes : ∀ rest left conversation past, exchange.Follows conversation rest → Carried u dispatches conversation past →
      dispatches.drop conversation.length = left → (overServer u rest left).Keeps
        (fun log op => ∃ conversation call, Requesting u exchange dispatches log conversation call op) past := by
    intro rest
    induction rest with
    | done value =>
      intro left conversation past follows carried remaining
      trivial
    | call call next ih =>
      intro left conversation past follows carried remaining
      cases left with
      | nil =>
        apply ih unreachable [] (conversation ++ [⟨call,unreachable⟩]) past
        · exact follows.snoc unreachable rfl
        · exact carried.unsent u remaining
        · have short := List.drop_eq_nil_iff.mp remaining
          rw [List.drop_eq_nil_iff,List.length_append]
          omega
      | cons dispatch later =>
        apply Program.Keeps.bind
        · apply Program.keeps_of_follows
          intro here op after reached
          exact ⟨conversation,call,⟨next,follows⟩,past,here,dispatch,later,after,rfl,carried,remaining,reached⟩
        · intro calls r yields
          apply ih r later (conversation ++ [⟨call,r⟩]) (past ++ calls)
          · exact follows.snoc r rfl
          · exact carried.snoc u remaining yields
          · rw [List.length_append,← List.drop_drop,remaining]
            rfl
  exact goes exchange dispatches [] [] rfl rfl rfl

end

/-- A finished exchange has had a conversation that its calls carried. -/
theorem overServer_yields (u : Setup) {exchange : Exchange} {dispatches : List Dispatch} {log : List CallEvent}
    {out : Outcome × Local} (yields : (overServer u exchange dispatches).Yields log out) :
    ∃ conversation, exchange.Yields conversation out ∧ Carried u dispatches conversation log := by
  induction exchange generalizing dispatches log with
  | done value =>
    obtain ⟨rfl,rfl⟩ := yields
    exact ⟨[],⟨rfl,rfl⟩,rfl⟩
  | call call next ih =>
    cases dispatches with
    | nil =>
      obtain ⟨conversation,answered,carried⟩ := ih unreachable yields
      exact ⟨⟨call,unreachable⟩::conversation,⟨unreachable,conversation,rfl,answered⟩,rfl,carried⟩
    | cons dispatch rest =>
      obtain ⟨first,second,r,rfl,sent,after⟩ := yields.of_bind
      obtain ⟨conversation,answered,carried⟩ := ih r after
      exact ⟨⟨call,r⟩::conversation,⟨r,conversation,rfl,answered⟩,first,second,rfl,sent,carried⟩

/-- The calls behind one answer of a conversation are calls of the log. -/
theorem Carried.answer {u : Setup} {dispatches : List Dispatch} {conversation : List ApiEvent} {log : List CallEvent}
    (carried : Carried u dispatches conversation log) {event : ApiEvent} (member : event ∈ conversation) :
    event.result = unreachable ∨ ∃ dispatch calls, (send u dispatch event.op).Yields calls event.result ∧
      ∀ call ∈ calls, call ∈ log := by
  induction conversation generalizing dispatches log with
  | nil => contradiction
  | cons first rest ih =>
    cases dispatches with
    | nil =>
      obtain ⟨gone,carried⟩ := carried
      rcases List.mem_cons.mp member with rfl | inside
      · exact .inl gone
      · exact ih carried inside
    | cons dispatch others =>
      obtain ⟨calls,more,rfl,sent,carried⟩ := carried
      rcases List.mem_cons.mp member with rfl | inside
      · exact .inr ⟨dispatch,calls,sent,fun call here => List.mem_append_left more here⟩
      · rcases ih carried inside with gone | ⟨other,later,yields,within⟩
        · exact .inl gone
        · exact .inr ⟨other,later,yields,fun call here => List.mem_append_right calls (within call here)⟩

/-! ### What an answer tells -/

section
variable {u : Setup} {dispatch : Dispatch} {call : ApiCall} {calls : List CallEvent} {r : ApiResponse}

theorem send_yields (yields : (send u dispatch call).Yields calls r) :
    (calls = [] ∧ r = unreachable) ∨
      ∃ out, (handlerOf u dispatch.now call).Yields calls out ∧ r = received dispatch.fate out := by
  unfold send at yields
  split at yields
  · exact .inl ⟨yields.1,yields.2.symm⟩
  · obtain ⟨first,second,out,rfl,served,ends,same⟩ := yields.of_bind
    rw [ends,List.append_nil]
    exact .inr ⟨out,served,same.symm⟩

/-- An answer with a status and a body is the answer of the handler. -/
theorem send_answered (yields : (send u dispatch call).Yields calls r) (reached : r.status ≠ 0) (readable : r.body ≠ .null) :
    ∃ out, (handlerOf u dispatch.now call).Yields calls out ∧ r = toApiResponse out := by
  rcases send_yields yields with ⟨-,rfl⟩ | ⟨out,served,rfl⟩
  · exact (reached rfl).elim
  · refine ⟨out,served,?_⟩
    cases fate : dispatch.fate with
    | answered => rfl
    | garbled => exact (readable (by rw [fate]; rfl)).elim
    | lost => exact (reached (by rw [fate]; rfl)).elim
    | undelivered => exact (reached (by rw [fate]; rfl)).elim

theorem handlerOf_answers (now : Nat) (req : FileJSON) (asks : requested call = some req) :
    (handlerOf u now call).Answers (UploadAnswer (context u now) req) [] := by
  cases call with
  | createFile payload =>
    cases asks
    exact handleCreateFile_answers (context u now) u.plat.prim u.cfg (toRequest payload)
  | updateFile fileId payload =>
    cases asks
    exact handleUpdateFile_answers (context u now) u.plat.prim u.cfg fileId (toRequest payload)
  | deleteFile fileId => contradiction
  | getFile fileId => contradiction

@[simp] theorem recordJson_fileID (f : FileJSON) : (recordJson f).valueStr (lit "file_id") [] = some f.fileID := by
  simp [recordJson,Json.valueStr,Json.value,Json.field,lit]

@[simp] theorem recordJson_content (f : FileJSON) :
    (recordJson f).valueStr (lit "encrypted_content") [] = some f.encryptedContent := by
  by_cases empty : f.encryptedContent = []
  · simp [recordJson,Json.valueStr,Json.value,Json.field,lit,empty]
  · simp [recordJson,Json.valueStr,Json.value,Json.field,lit,empty]

/-- A 409 that names a file carries the head that the handler read last. -/
theorem send_conflict (yields : (send u dispatch call).Yields calls r) {req : FileJSON}
    (asks : requested call = some req) (rejected : r.status = 409) {current : Json} {fileId : Str}
    (told : r.body.value (lit "current") (.obj []) = some current)
    (named : current.valueStr (lit "file_id") [] = some fileId) (known : fileId ≠ []) :
    ∃ before cur, calls = before ++ [⟨.getFile u.accountID req.fileID,.ok cur⟩] ∧
      current = recordJson (toFileJSON cur []) := by
  have readable : r.body ≠ .null := by
    intro null
    rw [null] at told
    contradiction
  obtain ⟨out,served,rfl⟩ := send_answered yields (by rw [rejected]; decide) readable
  have answer := (handlerOf_answers dispatch.now req asks).yields served
  rw [List.nil_append] at answer
  cases out with
  | record status body =>
    have code : (status : Int) = 409 := rejected
    have accepted := answer.1
    omega
  | error err =>
    cases has : err.current with
    | none =>
      simp [toApiResponse,errorJson,has,Json.value,Json.field,lit] at told
      rw [← told] at named
      simp [Json.valueStr,Json.value,Json.field] at named
      exact (known named).elim
    | some sent =>
      obtain ⟨before,cur,last,same⟩ := answer.2 sent has
      refine ⟨before,cur,last,?_⟩
      rw [← same]
      simpa [toApiResponse,errorJson,has,Json.value,Json.field,lit] using told.symm
  | batch results => exact answer.elim
  | changes list latest => exact answer.elim

/-- A download with a 200 answer carries the head that was read. -/
theorem send_download {fileId : Str} (yields : (send u dispatch (.getFile fileId)).Yields calls r)
    (answered : r.status = 200) (readable : r.body ≠ .null) :
    ∃ f, (f.deleted = true ∧ calls = [⟨.getFile u.accountID fileId,.ok f⟩] ∧ r.body = recordJson (toFileJSON f [])) ∨
      f.deleted = false ∧ ∃ content, calls = [⟨.getFile u.accountID fileId,.ok f⟩,⟨.getBlob f.blobKey,.found content⟩] ∧
        r.body = recordJson (toFileJSON f (Base64.encodeBase64URL content)) := by
  obtain ⟨out,served,rfl⟩ := send_answered yields (by rw [answered]; decide) readable
  have answer := (handleGetFile_answers (context u dispatch.now) fileId).yields served
  rw [List.nil_append] at answer
  cases out with
  | record status body =>
    obtain ⟨-,f,⟨gone,made,same⟩ | ⟨live,content,made,same⟩⟩ := answer
    · exact ⟨f,.inl ⟨gone,made,by rw [same]; rfl⟩⟩
    · exact ⟨f,.inr ⟨live,content,made,by rw [same]; rfl⟩⟩
  | error err =>
    have status : (err.httpStatus : Int) = 200 := answered
    have high : 400 ≤ err.httpStatus := answer
    omega
  | batch results => exact answer.elim
  | changes list latest => exact answer.elim

end

/-! ### Contents -/

section
variable (u : Setup)

theorem send_contents (dispatch : Dispatch) (call : ApiCall) (log : List CallEvent) :
    (send u dispatch call).Keeps (ContentAllowed u.plat.prim u.accountID) log := by
  unfold send
  split
  · trivial
  · apply Program.Keeps.bind
    · have keeps := handle_contents u.plat.prim u.cfg (requestOf u dispatch.now call)
      rw [handle_requestOf,requestOf_accountID] at keeps
      have after := keeps.later log (fun _ _ allowed => allowed.later log)
      rwa [List.append_nil] at after
    · intro calls out yields
      trivial

theorem overServer_contents (exchange : Exchange) (dispatches : List Dispatch) (log : List CallEvent) :
    (overServer u exchange dispatches).Keeps (ContentAllowed u.plat.prim u.accountID) log := by
  induction exchange generalizing dispatches log with
  | done value => trivial
  | call call next ih =>
    cases dispatches with
    | nil => exact ih unreachable [] log
    | cons dispatch rest =>
      apply Program.Keeps.bind
      · exact send_contents u dispatch call log
      · intro calls r _
        exact ih r rest _

end

section
variable (plat : Platform) (cfg : Config)

theorem party_contents (party : Party) :
    (partyProgram plat cfg party).Keeps (ContentAllowed plat.prim party.1.accountID) [] := by
  obtain ⟨work,plain⟩ := party
  cases work with
  | request asked =>
    apply Program.Keeps.bind
    · exact handle_contents plat.prim cfg asked
    · intro calls response _
      trivial
  | client dev accountID exchange dispatches =>
    apply Program.Keeps.bind
    · exact overServer_contents ⟨plat,dev,cfg,accountID⟩ exchange dispatches []
    · intro calls out _
      trivial

theorem clientRun_heads (moves : List (Move Party Bool)) : HeadInv (clientRun plat cfg moves) :=
  (headInv_run (fun (party : Party) => ContentAllowed plat.prim party.1.accountID) (party_contents plat cfg) moves).1

theorem clientRun_contents (moves : List (Move Party Bool)) : ContentInv plat.prim (clientRun plat cfg moves) := by
  apply (Ledger.ledger_invariant (fun (party : Party) program log => program.Keeps (ContentAllowed plat.prim party.1.accountID) log)
    (fun _ _ => True) (ContentInv plat.prim) (party_contents plat cfg) (fun _ _ _ _ keeps => keeps.2) ?_ ?_ State.empty
    moves contentInv_initial (guarded_trivial _ _ _)).1
  · intro l party _ inv
    exact ⟨inv.heads,inv.versions,inv.blobs,inv.readHeads,inv.readVersions,inv.readContents⟩
  · intro l index fault party op next log inv served logged _ serves
    have keeps := served index party _ log serves
    rw [logged.logs index party _ log serves] at keeps
    exact inv.called party.2 index fault party op next log keeps.1

theorem clientRun_logged (moves : List (Move Party Bool)) : (clientRun plat cfg moves).Logged :=
  Ledger.run_logged _ _ _ moves

end
end NPSync.Engine
