import PySOA.Server.Requests

/-! The Redis server transport: the reply queue and the framing of a response come out of the meta
dict of its request. -/
namespace PySOA

/-- A server's transport over a core for servers. -/
structure RedisServerTransport where
  core : RedisTransportCore
  isServer : core.isServer = true

namespace RedisServerTransport
variable (transport : RedisServerTransport)

def sendResponseMessage (requestId : Value) (metaDict : Meta) (body : Value) (io : RedisIo) :
    Except Exc Unit × Meta × RedisIo :=
  match metaDict.entries.get? "reply_to" with
  | none => (.error (.invalidMessageError "Missing reply queue name"), metaDict, io)
  | some (.text queueName) => transport.core.sendMessage queueName requestId metaDict body none io
  | some _ => (.error (.typeError "must be str"), metaDict, io)

/-- The transport in a world that holds Redis next to what the actions use. -/
def toServerTransport (σ : Type) : ServerTransport (σ × RedisIo) where
  receiveRequestMessage w :=
    let out := transport.core.receiveMessage w.2
    (out.1, w.1, out.2)
  sendResponseMessage requestId metaDict body w :=
    let out := transport.sendResponseMessage requestId metaDict body w.2
    (out.1, out.2.1, w.1, out.2.2)

end RedisServerTransport
end PySOA
