/-! # Well-known tags

    The keys that instrumentations agree on. A tag that may be overwritten holds
    one value, any other tag gets an entry for each value. -/

namespace TraceLink

/-- **Tag** with its key. -/
structure Tag where
  key : String
  overwritable : Bool
  deriving Repr, DecidableEq

namespace Tag

/-- Url of the incoming request. -/
def url : Tag := ⟨"url", false⟩

/-- Status code of the response over HTTP. -/
def httpStatus : Tag := ⟨"http.status_code", true⟩

def httpMethod : Tag := ⟨"http.method", false⟩

def httpParams : Tag := ⟨"http.params", true⟩

def databaseType : Tag := ⟨"db.type", false⟩

def databaseInstance : Tag := ⟨"db.instance", false⟩

def databaseStatement : Tag := ⟨"db.statement", false⟩

def databaseBindVariables : Tag := ⟨"db.bind_vars", false⟩

def queueName : Tag := ⟨"mq.queue", false⟩

def queueBroker : Tag := ⟨"mq.broker", false⟩

def queueTopic : Tag := ⟨"mq.topic", false⟩

def cacheType : Tag := ⟨"cache.type", false⟩

def cacheOperation : Tag := ⟨"cache.op", false⟩

def cacheCommand : Tag := ⟨"cache.cmd", false⟩

def cacheKey : Tag := ⟨"cache.key", false⟩

/-- Milliseconds between the sending of a message and its arrival. A consumer of a
    batch records one value for each message. -/
def transmissionLatency : Tag := ⟨"transmission.latency", false⟩

def rpcStatus : Tag := ⟨"rpc.status_code", true⟩

/-- Marks a span as the logical endpoint of its segment. -/
def logicEndpoint : Tag := ⟨"x-le", false⟩

def threadId : Tag := ⟨"thread.id", false⟩

/-- All well-known tags by their published names. -/
def wellKnown : List (String × Tag) := [
  ("URL", url), ("HTTP_RESPONSE_STATUS_CODE", httpStatus), ("HTTP_METHOD", httpMethod),
  ("HTTP_PARAMS", httpParams), ("DB_TYPE", databaseType), ("DB_INSTANCE", databaseInstance),
  ("DB_STATEMENT", databaseStatement), ("DB_BIND_VARIABLES", databaseBindVariables),
  ("MQ_QUEUE", queueName), ("MQ_BROKER", queueBroker), ("MQ_TOPIC", queueTopic),
  ("CACHE_TYPE", cacheType), ("CACHE_OP", cacheOperation), ("CACHE_CMD", cacheCommand),
  ("CACHE_KEY", cacheKey), ("TRANSMISSION_LATENCY", transmissionLatency),
  ("RPC_RESPONSE_STATUS_CODE", rpcStatus), ("LOGIC_ENDPOINT", logicEndpoint),
  ("THREAD_ID", threadId)]

end Tag

end TraceLink
