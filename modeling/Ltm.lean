import Ltm.Foundations.Runs
import Ltm.Pool.Guards
import Ltm.Kernel.Indices
import Ltm.Kernel.Efectos
import Ltm.Kernel.Tabla
import Ltm.Kernel.Escuchas
import Ltm.Kernel.Parametros
import Ltm.Kernel.Reparto
import Ltm.Kernel.Fragmentos
import Ltm.Kernel.Restos
import Ltm.Comunicacion.Recepcion
import Ltm.Comunicacion.Encapsulado
import Ltm.Nodo.Capacidad
import Ltm.Nodo.Dentro
import Ltm.Nodo.Libres
import Ltm.Nodo.Confirma
import Ltm.Nodo.Contesta
import Ltm.Nodo.Turno
import Ltm.Nodo.Resultado
import Ltm.Nodo.Busqueda
import Ltm.Nodo.Puertos
import Ltm.Nodo.Secuencia
import Ltm.Nodo.Reparto
import Ltm.Nodo.Contenedor
import Ltm.Nodo.Monton
import Ltm.Red.Acuerdo
import Ltm.Comunicacion.Azar
import Ltm.Pool.Alignment
import Ltm.Kernel.Segmento
import Ltm.Foundations.Rendezvous
import Ltm.Red.Datos
import Ltm.Red.Ranuras
import Ltm.Red.Simulacion
import Ltm.Red.Parejas
import Ltm.Red.Parada
import Ltm.Daemon.Espera
import Ltm.Foundations.Decimal
import Ltm.Ipcs.Enganche
import Ltm.Red.Ronda
import Ltm.Comunicacion.Descriptor
import Ltm.Daemon.Argumentos
import Ltm.Daemon.Arranque
import Ltm.Red.Encuentro
import Ltm.Red.Cupo
import Ltm.Foundations.DottedQuad
import Ltm.Aplic.Principal
import Ltm.Aplic.Conexion
import Ltm.Red.Lectura
