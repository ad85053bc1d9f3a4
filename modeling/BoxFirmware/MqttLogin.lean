import BoxFirmware.MqttTurn

/-! What `mqtt_thread` logs in with: every CONNECT of a run carries the number of the box and
the two strings that the thread has read from the flash. -/
namespace BoxFirmware.MqttLogin
open ByteMem CText GuardedRun MqttPacket MqttThread

/-- The CONNECT of version 3.1.1 with a clean session, a keep-alive of a minute and both
credentials. -/
def connectPacket (clientId : Nat) (username password : List UInt8) : List UInt8 :=
  let clientID := formatInt clientId
  [0x10] ++ mqttPacketEncode (10 + (clientID.length + 2) + (username.length + 2) +
      (password.length + 2)) ++ (writeCString (ascii "MQTT") ++ [4]) ++ [0xC2] ++ writeInt 60 ++
    writeCString clientID ++ writeCString username ++ writeCString password

def LogsIn (clientId : Nat) (username password : List UInt8) : Event → Prop
  | .sent _ packet _ _ =>
    packetType packet = msgConnect → packet = connectPacket clientId username password
  | _ => True

section

variable (b : Board) (env : Env)

theorem sentBytes_login (buf : List UInt8) :
    sentBytes (mqttSerializeConnect buf buflen b.data) =
      connectPacket b.clientId (readCredential b.chip 100) (readCredential b.chip 200) := by
  have fits := connect_fits b
  rw [mqttSerializeConnect, sentBytes_serialized, if_neg (by omega)]
  rfl

theorem turn_logsIn (st : St) : ∀ e ∈ (iteration b env st).1.events,
    LogsIn b.clientId (readCredential b.chip 100) (readCredential b.chip 200) e := by
  intro e he
  cases e with
  | sent sock packet len rc =>
    intro connect
    rcases turn_events b env st _ he with ⟨payload, report⟩ | switch | ⟨buf, read⟩
    · obtain ⟨packet', len', event, type⟩ := packetType_publishEvent st.core.mysock st.core.msgid
        st.core.retained rc payload
      rw [event] at report
      cases report
      exact absurd type (by rw [connect]; decide)
    · rcases switch with ⟨-, own⟩ | ⟨-, type⟩ | type
      · rw [own, sentBytes_login]
      · exact absurd type (by rw [connect]; decide)
      · exact absurd type (by rw [connect]; decide)
    · cases read
  | _ => trivial

theorem trace_logsIn (s : Start) (envs : List Env) : ∀ e ∈ trace s (rounds b s envs),
    LogsIn b.clientId (readCredential b.chip 100) (readCredential b.chip 200) e := by
  intro e he
  rcases List.mem_cons.mp he with rfl | member
  · trivial
  · obtain ⟨r, round, own⟩ := List.mem_flatMap.mp member
    have each : ∀ env st, ∀ e ∈ (iteration b env st).1.events,
        LogsIn b.clientId (readCredential b.chip 100) (readCredential b.chip 200) e := turn_logsIn b
    exact outputs_forall (P := fun r => ∀ e ∈ Round.events r, LogsIn _ _ _ e) each envs _ r round e own

theorem first_connect (s : Start) (envs : List Env) :
    ∃ len rc, .sent s.sock (connectPacket b.clientId (readCredential b.chip 100)
      (readCredential b.chip 200)) len rc ∈ trace s (rounds b s (env :: envs)) := by
  have running : (mqttThread s).halted = false := rfl
  have on : (atSwitch b env (mqttThread s)).msgtypes = msgConnect := by
    rw [atSwitch_msgtypes]
    exact switchOn_of_ne (show msgConnect ≠ 0 by decide)
  have sock : (atSwitch b env (mqttThread s)).mysock = s.sock := atSwitch_mysock b env (mqttThread s)
  have answer := (turn_answer b env running).1
  rw [afterSwitch_eq, dispatch_connect on, connectCase_log, sentBytes_login, sock] at answer
  refine ⟨(mqttSerializeConnect (atSwitch b env (mqttThread s)).buf buflen b.data).1,
    env.writeRc .answer, List.mem_cons_of_mem _ ?_⟩
  rw [rounds, outputs_cons, List.flatMap_cons, Round.events, answer]
  simp [atSwitch]

end

end BoxFirmware.MqttLogin
