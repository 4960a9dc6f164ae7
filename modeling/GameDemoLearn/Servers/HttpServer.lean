import GameDemoLearn.Net.Http.HttpRouter
import GameDemoLearn.Util.Util

/-!
The routes of `HttpServer` (`HttpServer.cpp`). The answers of the database are
arguments, and `InitHttpRouter` takes the two handlers that ask it.
-/

namespace GameDemoLearn.Servers

open Net.Http

/-- `GET /`. -/
def rootHandler : HttpHandlerFunc := fun _ =>
  .call (.setStatusCode .ok) (.call (.setCharSet (Bytes.ofString "UTF-8BOM"))
    (.call (.setContent (Bytes.ofString "Hello 你好!")) .returns))

/-- `GET /task` returns at once; what it posts runs later. -/
def taskHandler : HttpHandlerFunc := fun _ =>
  .leave (.task [.setContent (Bytes.ofString "Hello post task"), .setStatusCode .ok]) .returns

/-- `GET /user1` and `GET /user2` where the statement they need is not
registered. -/
def unregisteredHandler : HttpHandlerFunc := fun _ =>
  .call (.setStatusCode .internalServerError) .returns

def accountContent (row : AccountRow) : Bytes :=
  Bytes.ofString "id:" ++ Util.toChars row.id.toNat ++ Bytes.ofString ", email:" ++ row.email
    ++ Bytes.ofString ", name:" ++ row.name ++ Bytes.ofString ", age:"
    ++ Util.toChars row.age.toNat ++ Bytes.ofString ", intro:" ++ row.intro

/-- What both handlers do with the result of their query, which may be null. -/
def respondAccount : Option AccountRow → List ResponseCall
  | none => [.setStatusCode .internalServerError]
  | some row => [.setContent (accountContent row), .setStatusCode .ok]

/-- `GET /user1`: the response is left to the callback of the query. -/
def user1Handler (registered : Bool) : HttpHandlerFunc := fun view =>
  if registered then .leave (.query respondAccount) .returns else unregisteredHandler view

/-- `GET /user2` waits for the result on the thread it runs on. -/
def user2Handler (registered : Bool) (syncQuery : HttpRequest.View → Option AccountRow) :
    HttpHandlerFunc := fun view =>
  if registered then
    (respondAccount (syncQuery view)).foldr .call .returns
  else
    unregisteredHandler view

def initHttpRouter (user1 user2 : HttpHandlerFunc) : HttpRouter :=
  (((HttpRouter.create.addHttpHandler .get (Bytes.ofString "/") rootHandler).addHttpHandler
    .get (Bytes.ofString "/user1") user1).addHttpHandler
    .get (Bytes.ofString "/user2") user2).addHttpHandler
    .get (Bytes.ofString "/task") taskHandler

/-- A request for `GET /`. -/
def rootRequest : Bytes := Bytes.ofString "GET / HTTP/1.1\r\n\r\n"

theorem initHttpRouter_eq (user1 user2 : HttpHandlerFunc) :
    initHttpRouter user1 user2 = ⟨[(Bytes.ofString "GET /", rootHandler),
      (Bytes.ofString "GET /user1", user1), (Bytes.ofString "GET /user2", user2),
      (Bytes.ofString "GET /task", taskHandler)]⟩ := rfl

theorem completes_unregisteredHandler (view : HttpRequest.View) :
    (unregisteredHandler view).Completes := trivial

theorem completes_initHttpRouter {user1 user2 : HttpHandlerFunc}
    (huser1 : ∀ view, (user1 view).Completes) (huser2 : ∀ view, (user2 view).Completes) :
    (initHttpRouter user1 user2).Completes := by
  rw [initHttpRouter_eq]
  simp only [HttpRouter.Completes, List.forall_mem_cons]
  exact ⟨fun _ => trivial, huser1, huser2, fun _ => trivial, by simp⟩

end GameDemoLearn.Servers
